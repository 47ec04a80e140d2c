import ContractKit.Argument.Coercion
import ContractKit.Source.Program

/-!
# Arguments for programs

The arguments of a program are coerced to the parameters of its entry point; a program without entry
point takes none.
-/

namespace ContractKit

/-- Why words are no arguments for a program. -/
inductive ProgramArgumentError where
  /-- The source is no program. -/
  | source (e : SourceError)
  /-- The words do not fit the parameters. -/
  | coercion (e : CoercionError)
deriving DecidableEq

/-- The wording of an error about the file of the given name. -/
def ProgramArgumentError.message (file : Text) : ProgramArgumentError → Text
  | .source e => e.message file
  | .coercion e => e.message

namespace Program

/-- The parameters of the entry point, none when there is no entry point. -/
def entryParameters (program : Program) : List Parameter :=
  program.entryParameters?.getD []

/-- The arguments of a program that has been read. -/
def arguments (program : Except SourceError Program) (raws : List Text) :
    Except ProgramArgumentError (List Value) :=
  match program with
  | .error e => .error (.source e)
  | .ok program =>
    match Argument.coerceAll program.entryParameters raws with
    | .error e => .error (.coercion e)
    | .ok values => .ok values

/-- The notes that coercing the arguments of a program leaves. -/
def argumentNotes (program : Except SourceError Program) (raws : List Text) : List LogRecord :=
  match program with
  | .error _ => []
  | .ok program => Argument.notes program.entryParameters raws

end Program

end ContractKit
