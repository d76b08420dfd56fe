import Novon.Core.ModelUtils

/-!
# Models of the Flow service API

`packages/flow-api`: `models.py`, and the five operations of the `FlowApi` protocol.
-/

namespace Novon

/-- Response model for a flow resource. -/
structure FlowResponse where
  id : FieldValue
  name : FieldValue
  description : FieldValue
  status : FieldValue
  createdAt : FieldValue
  updatedAt : FieldValue
  deriving DecidableEq, Repr

/-- `FlowResponse.model_fields`. -/
def FlowResponse.modelFields : Dict String TypeHint :=
  .ofList [("id", .cls "str"), ("name", .cls "str"),
    ("description", .union [.cls "str", .noneType]), ("status", .cls "str"),
    ("created_at", .cls "datetime"), ("updated_at", .cls "datetime")]

/-- `flow.model_copy(update=update)`. -/
def FlowResponse.modelCopy (flow : FlowResponse) (update : Dict String FieldValue) :
    FlowResponse where
  id := update.getD "id" flow.id
  name := update.getD "name" flow.name
  description := update.getD "description" flow.description
  status := update.getD "status" flow.status
  createdAt := update.getD "created_at" flow.createdAt
  updatedAt := update.getD "updated_at" flow.updatedAt

/-- Request model for creating a flow. -/
structure FlowCreate where
  name : BoundedStr 1 100
  description : OptField (BoundedStr 0 500)
  deriving DecidableEq

/-- Request model for updating a flow. -/
structure FlowUpdate where
  name : OptField (BoundedStr 1 100)
  description : OptField (BoundedStr 0 500)
  status : OptField String
  deriving DecidableEq

def FlowCreate.fields (p : FlowCreate) : List (String × OptField FieldValue) :=
  [("name", .value (.str p.name.val)), ("description", p.description.toField BoundedStr.val)]

def FlowUpdate.fields (p : FlowUpdate) : List (String × OptField FieldValue) :=
  [("name", p.name.toField BoundedStr.val), ("description", p.description.toField BoundedStr.val),
    ("status", p.status.toField id)]

/-- Validates the JSON object of a create request. -/
def FlowCreate.validate (body : Dict String FieldValue) : Option FlowCreate := do
  let name ← requireStr (BoundedStr.ofString? 1 100) (body.get? "name")
  let description ← OptField.parse (BoundedStr.ofString? 0 500) (body.get? "description")
  return ⟨name, description⟩

/-- Validates the JSON object of an update request. -/
def FlowUpdate.validate (body : Dict String FieldValue) : Option FlowUpdate := do
  let name ← OptField.parse (BoundedStr.ofString? 1 100) (body.get? "name")
  let description ← OptField.parse (BoundedStr.ofString? 0 500) (body.get? "description")
  let status ← OptField.parse some (body.get? "status")
  return ⟨name, description, status⟩

/-- The operations of the `FlowApi` protocol, with their arguments. -/
inductive FlowCall where
  | getFlow (flowId : String)
  | listFlows
  | createFlow (payload : FlowCreate)
  | updateFlow (flowId : String) (payload : FlowUpdate)
  | deleteFlow (flowId : String)
  deriving DecidableEq

/-- A valid payload, for concrete runs. -/
def FlowCreate.release : FlowCreate where
  name := ⟨"release", by decide, by decide⟩
  description := .value ⟨"weekly", by decide, by decide⟩

/-- An explicit null for each field but the unset one, for concrete runs. -/
def FlowUpdate.clear : FlowUpdate where
  name := .null
  description := .null
  status := .unset

/-- A new status and nothing else, for concrete runs. -/
def FlowUpdate.archive : FlowUpdate where
  name := .unset
  description := .unset
  status := .value "archived"

/-! ### `partial_update_dict(payload, FlowResponse)` -/

theorem targetNullable_flowResponse :
    targetNullable FlowResponse.modelFields = ["description"] := by
  rfl

/-- Only the description of a flow is nullable. -/
theorem get?_partialUpdate_flow (p : FlowUpdate) (key : String) :
    (partialUpdateDict FieldValue.isNone (modelDump true p.fields)
        FlowResponse.modelFields).get? key =
      ((Dict.lookup key p.fields).bind (OptField.dump true)).filter
        fun v => !v.isNone || key = "description" := by
  have hnodup : (p.fields.map Prod.fst).Nodup := by
    simp [FlowUpdate.fields]
  rw [get?_partialUpdateDict, get?_modelDump true hnodup, targetNullable_flowResponse]
  simp

end Novon
