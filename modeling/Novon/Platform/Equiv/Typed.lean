import Novon.Flow.Equiv.Server
import Novon.Flow.Equiv.WellFormed
import Novon.Platform.Deployment
import Novon.Uc.Equiv.Findable
import Novon.Uc.Equiv.Server

/-!
# Stored records have the declared types

Whatever requests the two services are sent, every record that they store has the field types of its
response model.  This is all that the codec has to be relied on for.
-/

namespace Novon

theorem FieldValue.IsStr.overlay_toField {old : FieldValue} (h : old.IsStr) {α : Type}
    (f : OptField α) (text : α → String) : ((f.toField text).overlay old).IsStr := by
  cases f with
  | unset | null => exact h
  | value a => exact ⟨text a, rfl⟩

theorem newUser_typed (payload : UserCreate) (env : Env) : (Uc.newUser payload env).Typed :=
  ⟨⟨_, rfl⟩, ⟨_, rfl⟩, ⟨_, rfl⟩, ⟨_, rfl⟩, ⟨_, rfl⟩, ⟨_, rfl⟩⟩

theorem UserResponse.Typed.applyUserUpdate {user : UserResponse} (h : user.Typed) (p : UserUpdate)
    (now : Datetime) : (applyUserUpdate p now user).Typed where
  id := h.id
  username := h.username.overlay_toField p.username BoundedStr.val
  email := h.email.overlay_toField p.email BoundedStr.val
  status := h.status.overlay p.status
  createdAt := h.createdAt
  updatedAt := ⟨now, rfl⟩

theorem newFlow_typed (payload : FlowCreate) (env : Env) : (Flow.newFlow payload env).Typed where
  id := ⟨_, rfl⟩
  name := ⟨_, rfl⟩
  description := by
    rw [Flow.newFlow]
    cases payload.description with
    | unset | null => exact .inl rfl
    | value b => exact .inr ⟨b.val, rfl⟩
  status := ⟨_, rfl⟩
  createdAt := ⟨_, rfl⟩
  updatedAt := ⟨_, rfl⟩

theorem FlowResponse.Typed.applyFlowUpdate {flow : FlowResponse} (h : flow.Typed) (p : FlowUpdate)
    (now : Datetime) : (applyFlowUpdate p now flow).Typed where
  id := h.id
  name := h.name.overlay_toField p.name BoundedStr.val
  description := by
    rw [Novon.applyFlowUpdate]
    cases p.description with
    | unset => exact h.description
    | null => exact .inl rfl
    | value b => exact .inr ⟨b.val, rfl⟩
  status := h.status.overlay p.status
  createdAt := h.createdAt
  updatedAt := ⟨now, rfl⟩

/-- A request that is not routed to a handler leaves the state. -/
theorem Routed.serve_inv {κ ρ σ : Type} {framework : Framework ρ}
    {handle : κ → Env → σ → Reply ρ × σ} {P : σ → Prop}
    (hhandle : ∀ call env s, P s → P (handle call env s).2) (request : Request) (routed : Routed κ)
    (env : Env) {s : σ} (h : P s) : P (routed.serve framework handle request env s).2 := by
  cases routed with
  | unrouted | static _ | invalid => exact h
  | call call => exact hhandle call env s h

namespace Platform

/-- Every stored record has the declared types. -/
structure Stores.Typed (s : Stores) : Prop where
  user : ∀ userId user, s.uc.users.get? userId = some user → user.Typed
  flow : ∀ flowId flow, s.flow.get? flowId = some flow → flow.Typed

theorem typed_empty : Stores.empty.Typed :=
  ⟨by simp [Stores.empty, Uc.Store.empty], by simp [Stores.empty]⟩

theorem Stores.Typed.serve_uc {s : Stores} (h : s.Typed) (framework : Framework UserResponse)
    (request : Request) (env : Env) :
    Stores.Typed { s with uc := (Uc.serve framework request env s.uc).2 } := by
  refine ⟨?_, h.flow⟩
  refine Routed.serve_inv (P := fun s : Uc.Store => ∀ userId user,
    s.users.get? userId = some user → user.Typed) (fun call env s hs => ?_) request
    (Uc.route request) env h.user
  have he := Uc.handle_effect call env s
  generalize Uc.handle call env s = r at he ⊢
  cases he with
  | read _ | refused _ => exact hs
  | create _ =>
    intro userId user hget
    rcases Dict.get?_set_eq_some_iff.mp hget with ⟨rfl, rfl⟩ | ⟨_, hget⟩
    · exact newUser_typed _ env
    · exact hs userId user hget
  | @patch patchedId p existing hexisting _ =>
    intro userId user hget
    rcases Dict.get?_set_eq_some_iff.mp hget with ⟨rfl, rfl⟩ | ⟨_, hget⟩
    · exact (hs userId existing hexisting).applyUserUpdate p env.now
    · exact hs userId user hget
  | delete _ => exact fun userId user hget => hs userId user (Dict.get?_pop_eq_some_iff.mp hget).2

theorem Stores.Typed.serve_flow {s : Stores} (h : s.Typed) (framework : Framework FlowResponse)
    (request : Request) (env : Env) :
    Stores.Typed { s with flow := (Flow.serve framework request env s.flow).2 } := by
  refine ⟨h.user, ?_⟩
  refine Routed.serve_inv (P := fun s : Flow.Store => ∀ flowId flow,
    s.get? flowId = some flow → flow.Typed) (fun call env s hs => ?_) request
    (Flow.route request) env h.flow
  have he := Flow.handle_effect call env s
  generalize Flow.handle call env s = r at he ⊢
  cases he with
  | read _ | refused => exact hs
  | create =>
    intro flowId flow hget
    rcases Dict.get?_set_eq_some_iff.mp hget with ⟨rfl, rfl⟩ | ⟨_, hget⟩
    · exact newFlow_typed _ env
    · exact hs flowId flow hget
  | @patch patchedId p existing hexisting =>
    intro flowId flow hget
    rcases Dict.get?_set_eq_some_iff.mp hget with ⟨rfl, rfl⟩ | ⟨_, hget⟩
    · exact (hs flowId existing hexisting).applyFlowUpdate p env.now
    · exact hs flowId flow hget
  | delete _ => exact fun flowId flow hget => hs flowId flow (Dict.get?_pop_eq_some_iff.mp hget).2

end Platform

end Novon
