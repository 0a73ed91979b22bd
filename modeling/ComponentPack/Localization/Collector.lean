import ComponentPack.Localization.Table
import ComponentPack.Log

/-!
Collecting the tables of many components into one. The first table that is not empty fixes the
expected locales; every locale that a later component adds is reported.
-/

namespace ComponentPack.Localization

structure Collector where
  table : Table
  seen : Dictionary Text Unit

namespace Collector

def empty : Collector := ⟨.empty, .empty⟩

def codes (collector : Collector) : List Text := collector.seen.keys

def newCodes (collector : Collector) (table : Table) : List Text :=
  table.codes.filter fun code => !collector.seen.contains code

/-- Merges the table of a component, and reports the locales that it introduces. -/
def add (collector : Collector) (component : Text) (table : Table) : Collector × Log :=
  if table.isEmpty then (collector, [])
  else
    let fresh := collector.newCodes table
    let log :=
      if collector.seen.isEmpty then []
      else fresh.map fun code =>
        Log.warn (component ++ " introduces locale `" ++ code ++ "`")
    (⟨collector.table.merge table, collector.seen.insertAll (fresh.map fun code => (code, ()))⟩,
      log)

end Collector

end ComponentPack.Localization
