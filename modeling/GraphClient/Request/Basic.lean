import GraphClient.Projection.Nodes
import GraphClient.Request.Binding
import GraphClient.Selection.Check

/-!
# Requests

A request is a document with the values of its variables, and the knowledge of where the rows stand
in the answer.

* `RequestError` : why a request cannot be made.
* `Request.extract` : picks the rows out of an answer.
* `Request.ofBinding` : completes a document whose slots are bound.
-/

namespace GraphClient

/-- Why a request cannot be made. -/
inductive RequestError where
  | unknownEntity (name : String)
  | invalidSelection (entity : String) (violation : Violation)
  | missingArgument (operation argument : String)
  /-- A document lacks the field whose selection is left open in a generated text. -/
  | unwritable
  /-- A failure on the way to a custom operation of a package. -/
  | customOperation (name : String) (cause : RequestError)
deriving Repr, DecidableEq, Inhabited

/-- What is told about an error. -/
def RequestError.message : RequestError → String
  | .unknownEntity name => "unknown entity `" ++ name ++ "`"
  | .invalidSelection entity violation =>
    "invalid selection for " ++ entity ++ ": " ++ violation.message
  | .missingArgument operation argument =>
    "`" ++ operation ++ "` needs a value for `" ++ argument ++ "`"
  | .unwritable => "failed to render generated source"
  | .customOperation name cause =>
    "failed to generate custom operation `" ++ name ++ "`: " ++ cause.message

/-- A document, the values of its variables, and where the rows stand in the answer. -/
structure Request where
  document : Document
  values : Keyed Json
  /-- The fields that lead to the rows, from the root field on. -/
  path : List String
  /-- Whether the answer is the first element of the list at the end of the path. -/
  firstRow : Bool
  /-- The shape of the rows, if they have fields. -/
  projection : Option Projection
deriving Inhabited

namespace Request

/-- The root field of the request. -/
def rootField (request : Request) : String := request.path.headD ""

/-- Picks the rows out of an answer. -/
def extract (request : Request) (data : Json) : Option Json :=
  (data.at? request.path).bind fun value => if request.firstRow then value.item? 0 else some value

/-- Binds slots for an operation. -/
def bind (operation : String) (mode : BindingMode) (slots : List Slot) :
    Except RequestError Binding :=
  (Slot.bind mode slots).mapError (.missingArgument operation)

/-- A template binds nothing and has all slots. At run time no required slot is missing, and what is
bound are the slots that have a value. -/
theorem cases_of_bind {operation : String} {mode : BindingMode} {slots : List Slot}
    {binding : Binding} (h : bind operation mode slots = .ok binding) :
    (mode = .template ∧ binding = .of slots .empty) ∨
      (mode = .runtime ∧ (∀ slot ∈ slots, slot.isMissing = false) ∧
        binding = .of (slots.filter (·.value.isSome)) (Slot.values slots)) := by
  cases mode with
  | template => exact .inl ⟨rfl, (Except.ok.inj h).symm⟩
  | runtime =>
    rw [bind, Slot.bind] at h
    cases hmissing : slots.find? (·.isMissing) with
    | some missing =>
      rw [hmissing] at h
      cases h
    | none =>
      rw [hmissing] at h
      refine .inr ⟨rfl, fun slot hslot => ?_, (Except.ok.inj h).symm⟩
      exact Bool.eq_false_iff.2 (List.find?_eq_none.1 hmissing slot hslot)

/-- What is bound are some of the slots, among them all that are required. -/
theorem exists_slots_of_bind {operation : String} {mode : BindingMode} {slots : List Slot}
    {binding : Binding} (h : bind operation mode slots = .ok binding) :
    ∃ passed values, binding = .of passed values ∧ passed ⊆ slots ∧
      ∀ slot ∈ slots, slot.type.isRequired = true → slot ∈ passed := by
  rcases cases_of_bind h with ⟨-, rfl⟩ | ⟨-, hmissing, rfl⟩
  · exact ⟨slots, _, rfl, List.Subset.refl _, fun _ hslot _ => hslot⟩
  · refine ⟨_, _, rfl, List.filter_sublist.subset, fun slot hslot required => ?_⟩
    have hgiven := Slot.isSome_of_isMissing_eq_false (hmissing slot hslot) required
    exact List.mem_filter.2 ⟨hslot, hgiven⟩

/-- The shape of a table. -/
def shapeOf (catalog : Catalog) (table : Table) : Except RequestError Shape :=
  match catalog.find? table.name with
  | some shape => .ok shape
  | none => .error (.unknownEntity table.name)

/-- The selection itself, if it passes the strict check. -/
def checked (catalog : Catalog) (settings : Settings) (shape : Shape) (selection : Selection) :
    Except RequestError Selection :=
  match selection.check catalog settings.selection.strictDepth shape with
  | .ok () => .ok selection
  | .error violation => .error (.invalidSelection shape.name violation)

/-- The selection of a shape: the one of the caller, or else the configured one, which have to pass
the check; or else the given default. -/
def chosen (catalog : Catalog) (settings : Settings) (shape : Shape)
    (caller configured : Option Selection) (default : Selection) : Except RequestError Selection :=
  match caller <|> configured with
  | some selection => checked catalog settings shape selection
  | none => .ok default

/-- The projection of the rows of a table. -/
def rowProjection (catalog : Catalog) (settings : Settings) (table : Table)
    (selection : Option Selection) : Except RequestError Projection := do
  let shape ← shapeOf catalog table
  let selection ← chosen catalog settings shape selection
    (settings.selection.entities.find? table.name)
    (Selection.defaultFor shape settings.selection.policy)
  return selection.project catalog settings.selection.policy shape

end Request

end GraphClient
