import Mathlib.Data.Nat.Digits.Defs
import Novon.Core.BaseClient
import Novon.Data.JsonText
import Novon.Flow.Equiv.WellFormed
import Novon.Uc.Equiv.Findable

/-!
# Records as JSON

How services write their records and clients read them, for concrete runs: a record is an object, a
list an array.  A timestamp is written as a string, with its sign (a zero if there is none) and its
microseconds.  A record of the declared types is read as it was written (`readUser_members`,
`readFlow_members`).
-/

namespace Novon

open JsonText

/-! ### Writing -/

def decimal (n : ℕ) : List Char := (Nat.digits 10 n).reverse.map Nat.digitChar

def Datetime.text (t : Datetime) : String :=
  String.ofList ((if t < 0 then '-' else '0') :: decimal t.natAbs)

def FieldValue.text? : FieldValue → Option String
  | null => none
  | str s => some s
  | datetime t => some (Datetime.text t)

def UserResponse.members (user : UserResponse) : Members :=
  [("id", user.id.text?), ("username", user.username.text?), ("email", user.email.text?),
    ("status", user.status.text?), ("created_at", user.createdAt.text?),
    ("updated_at", user.updatedAt.text?)]

def FlowResponse.members (flow : FlowResponse) : Members :=
  [("id", flow.id.text?), ("name", flow.name.text?), ("description", flow.description.text?),
    ("status", flow.status.text?), ("created_at", flow.createdAt.text?),
    ("updated_at", flow.updatedAt.text?)]

/-- The UTF-8 bytes of a document. -/
def documentBytes (document : Document) : Bytes := (write document).toUTF8.data.toList

/-- The body of a reply. -/
def ReplyBody.jsonBytes {ρ : Type} (members : ρ → Members) : ReplyBody ρ → Bytes
  | .empty => []
  | .record r => documentBytes (.object (members r))
  | .records rs => documentBytes (.array (rs.map members))
  | .detail text => documentBytes (.object [("detail", some text)])
  | .mapping content => documentBytes (.object (content.map fun c => (c.1, some c.2)))

/-! ### Reading -/

/-- What the response models accept. -/
inductive Model where
  | user (user : UserResponse)
  | users (users : List UserResponse)
  | flow (flow : FlowResponse)
  | flows (flows : List FlowResponse)

def ofDecimal (digits : List Char) : ℕ :=
  Nat.ofDigits 10 (digits.map fun c => c.toNat - '0'.toNat).reverse

def Datetime.ofText? (text : String) : Option Datetime :=
  match text.toList with
  | [] => none
  | sign :: digits =>
    if !digits.all Char.isDigit then none
    else if sign = '-' then some (-ofDecimal digits)
    else if sign = '0' then some (ofDecimal digits)
    else none

section Fields

variable (members : Members) (name : String)

def readStr : Option FieldValue := (members.lookup name).join.map .str

def readNullable : Option FieldValue := (members.lookup name).map fun value => value.elim .null .str

def readDatetime : Option FieldValue :=
  ((members.lookup name).join.bind Datetime.ofText?).map .datetime

end Fields

def readUser (members : Members) : Option UserResponse := do
  let id ← readStr members "id"
  let username ← readStr members "username"
  let email ← readStr members "email"
  let status ← readStr members "status"
  let createdAt ← readDatetime members "created_at"
  let updatedAt ← readDatetime members "updated_at"
  return { id, username, email, status, createdAt, updatedAt }

def readFlow (members : Members) : Option FlowResponse := do
  let id ← readStr members "id"
  let name ← readStr members "name"
  let description ← readNullable members "description"
  let status ← readStr members "status"
  let createdAt ← readDatetime members "created_at"
  let updatedAt ← readDatetime members "updated_at"
  return { id, name, description, status, createdAt, updatedAt }

/-- The document that bytes are. -/
def readBytes (content : Bytes) : Except DecodeError Document :=
  match (ByteArray.mk content.toArray).utf8Decode? with
  | none => .error ⟨.unicodeDecodeError, "invalid start byte", by decide⟩
  | some text =>
    match read (String.ofList text.toList) with
    | none => .error ⟨.jsonDecodeError, "Expecting value", jsonDecodeError_isDecodeError⟩
    | some document => .ok document

def readModel : TypeHint → Document → Option Model
  | .cls "UserResponse", .object members => (readUser members).map .user
  | .cls "FlowResponse", .object members => (readFlow members).map .flow
  | .listOf (.cls "UserResponse"), .array objects => (objects.mapM readUser).map .users
  | .listOf (.cls "FlowResponse"), .array objects => (objects.mapM readFlow).map .flows
  | _, _ => none

/-- A codec for concrete runs. -/
def Codec.json : Codec Document Model where
  toTextDecoder := .sample
  loads := readBytes
  validatePython := readModel

/-! ### Reading what has been written -/

theorem readBytes_documentBytes (document : Document) :
    readBytes (documentBytes document) = .ok document := by
  have hbytes : ByteArray.mk (documentBytes document).toArray =
      (write document).toList.utf8Encode := by
    rw [documentBytes, Array.toArray_toList, String.utf8Encode_toList]
    rfl
  rw [readBytes, hbytes, List.utf8Decode?_utf8Encode]
  simp only [String.ofList_toList, read_write]

theorem digitChar_facts : ∀ d < 10, (Nat.digitChar d).isDigit = true ∧
    (Nat.digitChar d).toNat - '0'.toNat = d := by
  decide

theorem all_isDigit_decimal (n : ℕ) : (decimal n).all Char.isDigit = true := by
  rw [decimal, List.all_eq_true]
  intro c hc
  obtain ⟨d, hd, rfl⟩ := List.mem_map.mp hc
  exact (digitChar_facts d (Nat.digits_lt_base (by decide) (List.mem_reverse.mp hd))).1

theorem ofDecimal_decimal (n : ℕ) : ofDecimal (decimal n) = n := by
  have hdigits : (Nat.digits 10 n).map (fun d => (Nat.digitChar d).toNat - '0'.toNat) =
      Nat.digits 10 n := by
    rw [List.map_congr_left (g := id) ?_, List.map_id]
    exact fun d hd => (digitChar_facts d (Nat.digits_lt_base (by decide) hd)).2
  rw [ofDecimal, decimal, List.map_map, List.map_reverse, List.reverse_reverse]
  exact (congrArg (Nat.ofDigits 10) hdigits).trans (Nat.ofDigits_digits 10 n)

@[simp] theorem Datetime.ofText?_text (t : Datetime) : ofText? (text t) = some t := by
  have hne : '0' ≠ '-' := by decide
  rw [ofText?, text, String.toList_ofList]
  simp only [all_isDigit_decimal, ofDecimal_decimal, Bool.not_true, Bool.false_eq_true, if_false]
  by_cases h : t < 0
  · rw [if_pos h, if_pos rfl, Int.ofNat_natAbs_of_nonpos (Int.le_of_lt h), neg_neg]
  · rw [if_neg h, if_neg hne, if_pos rfl, Int.natAbs_of_nonneg (Int.not_lt.mp h)]

theorem readUser_members {user : UserResponse} (h : user.Typed) :
    readUser user.members = some user := by
  obtain ⟨id, username, email, status, createdAt, updatedAt⟩ := user
  obtain ⟨⟨_, rfl⟩, ⟨_, rfl⟩, ⟨_, rfl⟩, ⟨_, rfl⟩, ⟨_, rfl⟩, ⟨_, rfl⟩⟩ := h
  simp [readUser, UserResponse.members, readStr, readDatetime, FieldValue.text?,
    List.lookup_cons]

theorem readFlow_members {flow : FlowResponse} (h : flow.Typed) :
    readFlow flow.members = some flow := by
  obtain ⟨id, name, description, status, createdAt, updatedAt⟩ := flow
  obtain ⟨⟨_, rfl⟩, ⟨_, rfl⟩, rfl | ⟨_, rfl⟩, ⟨_, rfl⟩, ⟨_, rfl⟩, ⟨_, rfl⟩⟩ := h
  all_goals
    simp [readFlow, FlowResponse.members, readStr, readNullable, readDatetime, FieldValue.text?,
      List.lookup_cons]

theorem mapM_members {ρ : Type} {readRecord : Members → Option ρ} {members : ρ → Members}
    {rs : List ρ} (h : ∀ r ∈ rs, readRecord (members r) = some r) :
    (rs.map members).mapM readRecord = some rs := by
  induction rs with
  | nil => rfl
  | cons r rs ih =>
    have htail := ih fun r' hr' => h r' (List.mem_cons_of_mem _ hr')
    rw [List.map_cons, List.mapM_cons, h r List.mem_cons_self, htail]
    rfl

namespace Codec

theorem json_user {user : UserResponse} (h : user.Typed) :
    ∃ document, json.loads (ReplyBody.jsonBytes UserResponse.members (.record user)) =
        .ok document ∧
      json.validatePython (.cls "UserResponse") document = some (.user user) :=
  ⟨_, readBytes_documentBytes _, congrArg (Option.map Model.user) (readUser_members h)⟩

theorem json_flow {flow : FlowResponse} (h : flow.Typed) :
    ∃ document, json.loads (ReplyBody.jsonBytes FlowResponse.members (.record flow)) =
        .ok document ∧
      json.validatePython (.cls "FlowResponse") document = some (.flow flow) :=
  ⟨_, readBytes_documentBytes _, congrArg (Option.map Model.flow) (readFlow_members h)⟩

theorem json_users {users : List UserResponse} (h : ∀ user ∈ users, user.Typed) :
    ∃ document, json.loads (ReplyBody.jsonBytes UserResponse.members (.records users)) =
        .ok document ∧
      json.validatePython (.listOf (.cls "UserResponse")) document = some (.users users) :=
  ⟨_, readBytes_documentBytes _,
    congrArg (Option.map Model.users) (mapM_members fun user hu => readUser_members (h user hu))⟩

theorem json_flows {flows : List FlowResponse} (h : ∀ flow ∈ flows, flow.Typed) :
    ∃ document, json.loads (ReplyBody.jsonBytes FlowResponse.members (.records flows)) =
        .ok document ∧
      json.validatePython (.listOf (.cls "FlowResponse")) document = some (.flows flows) :=
  ⟨_, readBytes_documentBytes _,
    congrArg (Option.map Model.flows) (mapM_members fun flow hf => readFlow_members (h flow hf))⟩

end Codec

end Novon
