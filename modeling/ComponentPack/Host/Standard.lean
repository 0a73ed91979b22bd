import ComponentPack.Host.Shell.Run

/-!
The host that offers a few small programs and a shell.
-/

namespace ComponentPack.Host

open Files

/-- Why a program that is none of ours cannot be started. Files of the working directory may not
be run, and neither may the directory of programs or the one above it. -/
def startFault (disk : Disk) (program : Text) : Text :=
  let forbidden : Text := "Permission denied (os error 13)"
  if program.any fun c => c = '/' then
    match disk.resolve .target ⟨program⟩ with
    | .ok (.present _ _) => forbidden
    | .ok (.absent _) => Fault.notFound.message
    | .error e => e.message
  else if program = ['.'] ∨ program = ['.', '.'] then forbidden
  else if Disk.maxName < program.byteSize then Fault.nameTooLong.message
  else Fault.notFound.message

/-- A host with `true`, `false`, `cat`, `head` and `sh`. -/
def standard : Host := fun invocation disk =>
  if (invocation.program :: invocation.arguments).any fun text => text.any fun c => c.toNat = 0 then
    (.notStarted "nul byte found in provided data", disk)
  else
    let name := Shell.programName invocation.program
    let arguments := invocation.arguments.map Text.spread
    let run? : Option (Run × Disk) :=
      if name = "sh" then
        let shell : Shell :=
          { disk := disk
            channels := [.supply invocation.input, .store .empty, .store .empty]
            name := name
            left := invocation.limit }
        some (shell.execute arguments)
      else
        (Tool.find? name).map fun tool =>
          let (result, _) := tool { disk := disk } arguments { bytes := invocation.input }
          (.ended (.exit result.code) result.output result.errors, disk)
    match run? with
    | none => (.notStarted (startFault disk invocation.program), disk)
    | some (run, changed) =>
      if invocation.limit = 0 then (.timedOut, disk) else (run, changed)

end ComponentPack.Host
