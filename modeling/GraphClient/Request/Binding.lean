import GraphClient.Document.Basic
import GraphClient.Keyed

/-!
# Slots and their binding

A slot is a place where a request takes a value: a variable of the document, passed to the argument
of the same name. A template declares every slot. A request declares the slots that were given a
value, and a required slot without a value is an error.

* `Slot.bind` : binds a list of slots; `Binding.of` : what is declared for some slots.
-/

namespace GraphClient

/-- A place where a request takes a value. -/
structure Slot where
  name : String
  type : TypeRef
  value : Option Json
deriving Repr, Inhabited

/-- Whether every slot is declared, or only those with a value. -/
inductive BindingMode where
  | template
  | runtime
deriving Repr, DecidableEq, Inhabited

/-- A request is bound at run time if a value was given for it. -/
def BindingMode.ofSupplied {α : Type} (value : Option α) : BindingMode :=
  if value.isSome then .runtime else .template

/-- The variables of a document, the arguments that pass them on, and the values that go with it. -/
structure Binding where
  declarations : List VariableDeclaration
  arguments : List (String × Literal)
  values : Keyed Json
deriving Inhabited

namespace Slot

/-- The variable of a slot. -/
def declaration (slot : Slot) : VariableDeclaration := ⟨slot.name, slot.type⟩

/-- The argument that passes the variable of a slot on. -/
def argument (slot : Slot) : String × Literal := (slot.name, .reference slot.name)

/-- Whether a slot is required and has no value. -/
def isMissing (slot : Slot) : Bool := slot.type.isRequired && slot.value.isNone

theorem isSome_of_isMissing_eq_false {slot : Slot} (h : slot.isMissing = false)
    (required : slot.type.isRequired = true) : slot.value.isSome = true := by
  simpa [isMissing, required] using h

end Slot

/-- What is declared for some slots, with the values that they have been given. -/
def Binding.of (slots : List Slot) (values : Keyed Json) : Binding :=
  ⟨slots.map (·.declaration), slots.map (·.argument), values⟩

/-- The values of the slots that have one. -/
def Slot.values (slots : List Slot) : Keyed Json :=
  Keyed.ofList (slots.filterMap fun slot => slot.value.map fun value => (slot.name, value))

/-- Binds some slots. At run time the first required slot without a value is reported by its name.
-/
def Slot.bind (mode : BindingMode) (slots : List Slot) : Except String Binding :=
  match mode with
  | .template => .ok (Binding.of slots Keyed.empty)
  | .runtime =>
    match slots.find? (·.isMissing) with
    | some slot => .error slot.name
    | none => .ok (Binding.of (slots.filter (·.value.isSome)) (Slot.values slots))

end GraphClient
