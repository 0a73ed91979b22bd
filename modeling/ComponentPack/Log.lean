import ComponentPack.Text.Basic

/-!
Messages about the progress of a command. Commands return their log as data.
-/

namespace ComponentPack

namespace Log

inductive Level where
  | debug
  | info
  | warn
  | error
deriving DecidableEq, Repr

def Level.name : Level → Text
  | debug => "DEBUG"
  | info => "INFO"
  | warn => "WARN"
  | error => "ERROR"

structure Entry where
  level : Level
  message : Text
deriving DecidableEq, Repr

def debug (message : Text) : Entry := ⟨.debug, message⟩

def info (message : Text) : Entry := ⟨.info, message⟩

def warn (message : Text) : Entry := ⟨.warn, message⟩

def error (message : Text) : Entry := ⟨.error, message⟩

def Entry.render (entry : Entry) : Text := entry.level.name ++ ' ' :: entry.message

end Log

abbrev Log := List Log.Entry

end ComponentPack
