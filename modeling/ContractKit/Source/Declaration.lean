import ContractKit.Ty.Basic

/-!
# Declarations

What a source file declares at its top level, as far as arguments need it: functions and
transactions with their parameters, and composite types with their initializers. A `Program` gives
the parameters of its entry point and the number of its authorizers.
-/

namespace ContractKit

/-- A parameter of a function. -/
structure Parameter where
  /-- The argument label, empty when there is none. -/
  label : Text
  /-- The name of the parameter. -/
  identifier : Text
  /-- Its type. -/
  type : Ty
  /-- The type as the source writes it. -/
  typeText : Text

/-- A function with its parameters. -/
structure FunctionDeclaration where
  /-- The name of the function. -/
  identifier : Text
  /-- Its parameters. -/
  parameters : List Parameter

/-- A transaction. -/
structure TransactionDeclaration where
  /-- The parameters; none when the transaction has no parameter list. -/
  parameters : Option (List Parameter)
  /-- The first `prepare` block. -/
  prepare : Option FunctionDeclaration

/-- The kinds of composite types. -/
def compositeKinds : List Text :=
  ["contract", "resource", "struct", "event", "enum", "attachment"]

/-- A composite type or its interface. -/
structure CompositeDeclaration where
  /-- One of `compositeKinds`. -/
  kind : Text
  /-- The name of the type. -/
  identifier : Text
  /-- Its initializers. -/
  initializers : List FunctionDeclaration

/-- A declaration at the top level of a file. -/
inductive Declaration where
  /-- A function. -/
  | function (declaration : FunctionDeclaration)
  /-- A transaction. -/
  | transaction (declaration : TransactionDeclaration)
  /-- A composite type. -/
  | composite (declaration : CompositeDeclaration)
  /-- The interface of a composite type. -/
  | interface (declaration : CompositeDeclaration)

/-- What a file declares, in order. -/
structure Program where
  /-- The declarations. -/
  declarations : List Declaration

namespace Program

/-- The functions of a program. -/
def functions (program : Program) : List FunctionDeclaration :=
  program.declarations.filterMap fun
    | .function declaration => some declaration
    | _ => none

/-- The transactions of a program. -/
def transactions (program : Program) : List TransactionDeclaration :=
  program.declarations.filterMap fun
    | .transaction declaration => some declaration
    | _ => none

/-- The composite types of a program. -/
def composites (program : Program) : List CompositeDeclaration :=
  program.declarations.filterMap fun
    | .composite declaration => some declaration
    | _ => none

/-- The interfaces of a program. -/
def interfaces (program : Program) : List CompositeDeclaration :=
  program.declarations.filterMap fun
    | .interface declaration => some declaration
    | _ => none

/-- The function that is called when the program is a script: its only one, if that is `main`. -/
def mainFunction? (program : Program) : Option FunctionDeclaration :=
  match program.functions with
  | [function] => if function.identifier = "main" then some function else none
  | _ => none

/-- The contract of a program that declares nothing but one contract. -/
def soleContract? (program : Program) : Option CompositeDeclaration :=
  match program.composites, program.interfaces with
  | [composite], [] => if composite.kind = "contract" then some composite else none
  | _, _ => none

/-- The parameters of the one transaction of a program. -/
def transactionParameters? (program : Program) : Option (List Parameter) :=
  match program.transactions with
  | [transaction] => transaction.parameters
  | _ => none

/-- The parameters of the one initializer of the sole contract. -/
def initializerParameters? (program : Program) : Option (List Parameter) :=
  match program.soleContract?.map (·.initializers) with
  | some [initializer] => some initializer.parameters
  | _ => none

/-- The parameters of the entry point. A sole contract with one initializer goes before a
transaction, and a transaction before a script. -/
def entryParameters? (program : Program) : Option (List Parameter) :=
  program.initializerParameters? <|> program.transactionParameters? <|>
    program.mainFunction?.map (·.parameters)

/-- How many accounts have to sign: the parameters of the `prepare` block of the one transaction. -/
def authorizerCount (program : Program) : Nat :=
  match program.transactions with
  | [transaction] => ((transaction.prepare.map (·.parameters)).getD []).length
  | _ => 0

end Program

end ContractKit
