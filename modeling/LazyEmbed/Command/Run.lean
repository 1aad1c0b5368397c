import LazyEmbed.Files.TextFile
import LazyEmbed.Template.Fault
import LazyEmbed.Validation.Page

/-!
What a command does: it prints lines, as output or as errors, and ends with an exit code, unless a
failure that it has no answer to ends it.
-/

namespace LazyEmbed.Command

inductive Failure where
  | file (fault : Files.TextFault)
  | template (fault : Template.Fault)
  | page (fault : Validation.Fault)

def Failure.describe : Failure → Text
  | file (.access fault) => fault.describe
  | file (.malformed found) => found.message
  | template _ => "A template holds what cannot be read"
  | page (.page _) => "A page holds what cannot be read"
  | page (.payload .tooDeep) => "A payload is nested too deeply"

inductive Ending where
  | exit (code : Nat)
  | failed (failure : Failure)

structure Run where
  output : List Text
  errors : List Text
  ending : Ending

namespace Run

def exit (code : Nat) : Run := ⟨[], [], .exit code⟩

def fail (failure : Failure) : Run := ⟨[], [], .failed failure⟩

def after (lines : List Text) (run : Run) : Run := { run with output := lines ++ run.output }

end Run

end LazyEmbed.Command
