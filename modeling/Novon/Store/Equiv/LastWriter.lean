import Novon.Flow.Equiv.Concurrent
import Novon.Uc.Equiv.History

/-!
# Last writer wins, field by field

In every run, however the handlers of any number of clients interleave at the lock, each field of a
stored record holds what the latest successful PATCH of it set, or what it was created with
(`last_writer_wins`).  This is the history of a record machine, read off the statuses of the trace.
Two PATCHes that set no field in common therefore commute up to the time stamp.
-/

namespace Novon

open Run

/-- Overwriting with two partial values of which one is absent, in either order. -/
theorem getD_getD_comm {α : Type*} {a b : Option α} (h : a = none ∨ b = none) (old : α) :
    a.getD (b.getD old) = b.getD (a.getD old) := by
  rcases h with rfl | rfl <;> rfl

/-! ### UC -/

namespace Uc

/-- The value that a step effectively sets a field of a user to: a `PATCH` of it answered 200. -/
def patchedValue (userId name : String) : Step × Reply UserResponse → Option FieldValue
  | (⟨.updateUser i p, _⟩, ⟨status, _⟩) =>
    if status = 200 ∧ i = userId then
      effective (targetNullable UserResponse.modelFields) p.fields name
    else none
  | _ => none

/-- A `POST` answered 201 with a user of this id. -/
def Creates (userId : String) (created : UserResponse) (t : Step × Reply UserResponse) : Prop :=
  (∃ payload, t.1.call = .createUser payload) ∧ t.2 = ⟨201, .record created⟩ ∧
    userIdOf t.1.env.uuid = userId

theorem assigned_write {userId name : String} (hname : name ≠ "updated_at")
    (t : Step × Reply UserResponse) :
    (write t).assigned userId name = patchedValue userId name t := by
  obtain ⟨⟨call, env⟩, ⟨status, body⟩⟩ := t
  cases call with
  | updateUser i p =>
    by_cases hs : status = 200 <;> by_cases hi : i = userId <;>
      simp [write, patchedValue, Write.assigned, UserUpdate.assigns, hs, hi, hname]
  | createUser payload =>
    cases body with
    | record user => by_cases hs : status = 201 <;> simp [write, patchedValue, Write.assigned, hs]
    | empty | records _ | detail _ | mapping _ => rfl
  | deleteUser i => by_cases hs : status = 204 <;> simp [write, patchedValue, Write.assigned, hs]
  | getUser _ | getUserByUsername _ | listUsers => rfl

theorem creates_of_write {userId : String} {value : String → FieldValue}
    {t : Step × Reply UserResponse} (h : write t = .create userId value) :
    ∃ created, Creates userId created t ∧ value = created.field := by
  unfold write at h
  split at h
  · next payload env status user =>
    split at h
    · next hs =>
      obtain ⟨rfl, rfl⟩ := Write.create.inj h
      exact ⟨user, ⟨⟨payload, rfl⟩, by rw [hs], rfl⟩, rfl⟩
    · cases h
  · split at h <;> cases h
  · split at h <;> cases h
  · cases h

/-- A trace explains a stored user: it was created, neither created again nor removed since, and
each field but the time stamp holds what the latest successful `PATCH` since effectively set, or
what it was created with. -/
def Explains (tr : List (Step × Reply UserResponse)) (userId : String) (user : UserResponse) :
    Prop :=
  ∃ before creation after created, tr = before ++ creation :: after ∧
    Creates userId created creation ∧
    userId ∉ recordMachine.createdKeys after ∧ userId ∉ recordMachine.removedKeys after ∧
    ∀ name, name ≠ "updated_at" → user.field name =
      (after.reverse.findSome? (patchedValue userId name)).getD (created.field name)

theorem explains_trace (run : List Step) (userId : String) (user : UserResponse)
    (h : (exec step run Store.empty).2.users.get? userId = some user) :
    Explains (trace step run Store.empty) userId user := by
  have hrec : recordMachine.record (exec step run Store.empty).2 userId = some user.field :=
    congrArg (Option.map UserResponse.field) h
  have hprovenance := recordMachine.exists_creation record_empty run userId _ hrec
  exact hprovenance.explained recordMachine (fun _ _ => creates_of_write)
    (fun _ hname => assigned_write hname)

/-- What a `PATCH` finds when it is answered 200. -/
structure Accepts (p : UserUpdate) (userId : String) (existing : UserResponse) (s : Store) :
    Prop where
  get? : s.users.get? userId = some existing
  free : ¬ (Renames p existing ∧ Taken p userId s)

theorem step_updateUser {p : UserUpdate} {userId : String} {existing : UserResponse} {s : Store}
    (h : Accepts p userId existing s) (env : Env) :
    step ⟨.updateUser userId p, env⟩ s = (⟨200, .record (applyUserUpdate p env.now existing)⟩,
      patched userId p env existing s) := by
  simp only [step, handle, run_updateUser, h.get?, if_neg h.free]
  rfl

theorem exists_accepts {p : UserUpdate} {userId : String} {s : Store} {env : Env}
    (h : (step ⟨.updateUser userId p, env⟩ s).1.statusCode = 200) :
    ∃ existing, Accepts p userId existing s := by
  simp only [step, handle, run_updateUser] at h
  split at h
  · simp [Reply.ofResult] at h
  · next existing hget =>
    split at h
    · simp [Reply.ofResult] at h
    · next hfree => exact ⟨existing, hget, hfree⟩

/-- A payload without a username renames nobody. -/
theorem not_renames {p : UserUpdate}
    (h : effective (targetNullable UserResponse.modelFields) p.fields "username" = none)
    (existing : UserResponse) : ¬ Renames p existing := by
  cases hp : p.username with
  | unset | null => simp [Renames, newUsername, hp, OptField.toField, OptField.overlay]
  | value v =>
    simp [effective, UserUpdate.fields, Dict.lookup, hp, OptField.toField] at h

/-- A `PATCH` without a username does not change whether another one is accepted. -/
theorem accepts_patched_iff {p q : UserUpdate} {userId : String} {existing : UserResponse}
    {s : Store} (env : Env)
    (hq : effective (targetNullable UserResponse.modelFields) q.fields "username" = none)
    (hget : s.users.get? userId = some existing) :
    Accepts p userId (applyUserUpdate q env.now existing) (patched userId q env existing s) ↔
      Accepts p userId existing s := by
  have hname : (applyUserUpdate q env.now existing).username = existing.username := by
    rw [username_applyUserUpdate, if_neg (not_renames hq existing)]
  have hindex : (patched userId q env existing s).usersByUsername = s.usersByUsername :=
    if_neg (not_renames hq existing)
  have hiff : (Renames p (applyUserUpdate q env.now existing) ∧
      Taken p userId (patched userId q env existing s)) ↔
        (Renames p existing ∧ Taken p userId s) := by
    rw [Renames, Taken, hname, hindex, Renames, Taken]
  exact ⟨fun h => ⟨hget, mt hiff.mpr h.free⟩,
    fun h => ⟨Dict.get?_set_self _ _ _, mt hiff.mp h.free⟩⟩

/-- Payloads that set no field in common. -/
def Disjoint (p q : UserUpdate) : Prop :=
  ∀ name, effective (targetNullable UserResponse.modelFields) p.fields name = none ∨
    effective (targetNullable UserResponse.modelFields) q.fields name = none

theorem disjoint_sample : Disjoint .toAlicia .suspend := by
  intro name
  by_cases hname : name = "status"
  · exact .inl (by rw [hname]; rfl)
  · refine .inr ?_
    by_cases husername : "username" = name <;> by_cases hemail : "email" = name <;>
      simp [effective, UserUpdate.fields, UserUpdate.suspend, Dict.lookup, OptField.toField,
        Ne.symm hname, husername, hemail]

/-- Two `PATCH`es that set no field in common and are both accepted are so in either order. -/
theorem accepts_swap {p q : UserUpdate} (hd : Disjoint p q) {userId : String}
    {existing : UserResponse} {s : Store} (env env' : Env) (hp : Accepts p userId existing s)
    (hq : Accepts q userId (applyUserUpdate p env.now existing) (patched userId p env existing s)) :
    Accepts q userId existing s ∧
      Accepts p userId (applyUserUpdate q env'.now existing)
        (patched userId q env' existing s) := by
  rcases hd "username" with hpn | hqn
  · have hq' := (accepts_patched_iff env hpn hp.get?).mp hq
    exact ⟨hq', Dict.get?_set_self _ _ _, fun h => not_renames hpn _ h.1⟩
  · exact ⟨⟨hp.get?, fun h => not_renames hqn _ h.1⟩, (accepts_patched_iff env' hqn hp.get?).mpr hp⟩

theorem applyUserUpdate_comm {p q : UserUpdate} (hd : Disjoint p q) (t₁ t₂ t₃ t₄ : Datetime)
    (user : UserResponse) :
    applyUserUpdate p t₄ (applyUserUpdate q t₃ user) =
      { applyUserUpdate q t₂ (applyUserUpdate p t₁ user) with updatedAt := .datetime t₄ } := by
  have hfield : ∀ name, name ≠ "updated_at" →
      (applyUserUpdate p t₄ (applyUserUpdate q t₃ user)).field name =
        (applyUserUpdate q t₂ (applyUserUpdate p t₁ user)).field name := by
    intro name hname
    simp only [UserResponse.field_applyUserUpdate, UserUpdate.assigns, if_neg hname]
    exact getD_getD_comm (hd name) _
  have hid := hfield "id" (by decide)
  have husername := hfield "username" (by decide)
  have hemail := hfield "email" (by decide)
  have hstatus := hfield "status" (by decide)
  have hcreated := hfield "created_at" (by decide)
  rw [UserResponse.mk.injEq]
  exact ⟨hid, husername, hemail, hstatus, hcreated, rfl⟩

/-- Two `PATCH`es in a row that are both answered 200. -/
theorem exec_updateUser_updateUser {p q : UserUpdate} {userId : String} {env env' : Env} {s : Store}
    (h : (exec step [⟨.updateUser userId p, env⟩, ⟨.updateUser userId q, env'⟩] s).1.map
      Reply.statusCode = [200, 200]) :
    ∃ existing, Accepts p userId existing s ∧
      Accepts q userId (applyUserUpdate p env.now existing) (patched userId p env existing s) := by
  simp only [exec_cons, exec_nil, List.map_cons, List.map_nil, List.cons.injEq, and_true] at h
  obtain ⟨existing, hp⟩ := exists_accepts h.1
  rw [step_updateUser hp] at h
  obtain ⟨existing', hq⟩ := exists_accepts h.2
  obtain rfl := Option.some.inj (hq.get?.symm.trans (Dict.get?_set_self _ _ _))
  exact ⟨existing, hp, hq⟩

theorem exec_of_accepts {p q : UserUpdate} {userId : String} {existing : UserResponse} {s : Store}
    {env env' : Env} (hp : Accepts p userId existing s)
    (hq : Accepts q userId (applyUserUpdate p env.now existing) (patched userId p env existing s)) :
    (exec step [⟨.updateUser userId p, env⟩, ⟨.updateUser userId q, env'⟩] s).1.map
        Reply.statusCode = [200, 200] ∧
      (exec step [⟨.updateUser userId p, env⟩, ⟨.updateUser userId q, env'⟩] s).2.users.get?
        userId = some (applyUserUpdate q env'.now (applyUserUpdate p env.now existing)) := by
  simp only [exec_cons, exec_nil, step_updateUser hp, step_updateUser hq]
  exact ⟨rfl, Dict.get?_set_self _ _ _⟩

/-- **Disjoint `PATCH`es commute**, up to the time stamp. -/
theorem updateUser_comm {p q : UserUpdate} (hd : Disjoint p q) {userId : String} {s : Store}
    {env₁ env₂ : Env} (env₃ env₄ : Env)
    (h : (exec step [⟨.updateUser userId p, env₁⟩, ⟨.updateUser userId q, env₂⟩] s).1.map
      Reply.statusCode = [200, 200]) :
    (exec step [⟨.updateUser userId q, env₃⟩, ⟨.updateUser userId p, env₄⟩] s).1.map
        Reply.statusCode = [200, 200] ∧
      ∃ user, (exec step [⟨.updateUser userId p, env₁⟩,
          ⟨.updateUser userId q, env₂⟩] s).2.users.get? userId = some user ∧
        (exec step [⟨.updateUser userId q, env₃⟩,
          ⟨.updateUser userId p, env₄⟩] s).2.users.get? userId =
            some { user with updatedAt := .datetime env₄.now } := by
  obtain ⟨existing, hp, hq⟩ := exec_updateUser_updateUser h
  obtain ⟨hq', hp'⟩ := accepts_swap hd env₁ env₃ hp hq
  refine ⟨(exec_of_accepts hq' hp').1, _, (exec_of_accepts hp hq).2, ?_⟩
  rw [(exec_of_accepts hq' hp').2, applyUserUpdate_comm hd env₁.now env₂.now env₃.now env₄.now]

end Uc

/-! ### Flow -/

namespace Flow

/-- The value that an event effectively sets a field of a flow to: a `PATCH` of it answered
200. -/
def patchedValue (flowId name : String) : Event × Option (Reply FlowResponse) → Option FieldValue
  | (.run (.updateFlow i p) _, some ⟨status, _⟩) =>
    if status = 200 ∧ i = flowId then
      effective (targetNullable FlowResponse.modelFields) p.fields name
    else none
  | _ => none

/-- A waiting create that gets the lock and is answered 201 with a flow of this id. -/
def Creates (flowId : String) (created : FlowResponse) (t : Event × Option (Reply FlowResponse)) :
    Prop :=
  (∃ n, t.1 = .insert n) ∧ t.2 = some ⟨201, .record created⟩ ∧ created.id = .str flowId

theorem assigned_write {flowId name : String} (hname : name ≠ "updated_at")
    (t : Event × Option (Reply FlowResponse)) :
    (write t).assigned flowId name = patchedValue flowId name t := by
  unfold write
  split
  · next status flow =>
    cases flow.id with
    | str i => by_cases hs : status = 201 <;> simp [Write.assigned, hs, patchedValue]
    | null | datetime _ => rfl
  · next i p env status body =>
    by_cases hs : status = 200 <;> by_cases hi : i = flowId <;>
      simp [patchedValue, Write.assigned, FlowUpdate.assigns, hs, hi, hname]
  · next status _ => by_cases hs : status = 204 <;> simp [Write.assigned, hs, patchedValue]
  · next _ hpatch _ =>
    rw [patchedValue]
    · rfl
    · exact hpatch

theorem creates_of_write {flowId : String} {value : String → FieldValue}
    {t : Event × Option (Reply FlowResponse)} (h : write t = .create flowId value) :
    ∃ created, Creates flowId created t ∧ value = created.field := by
  unfold write at h
  split at h
  · next n status flow =>
    split at h
    · next i hi =>
      split at h
      · next hs =>
        obtain ⟨rfl, rfl⟩ := Write.create.inj h
        exact ⟨flow, ⟨⟨n, rfl⟩, by rw [hs], hi⟩, rfl⟩
      · cases h
    · cases h
  · split at h <;> cases h
  · split at h <;> cases h
  · cases h

/-- A trace explains a stored flow: it was created, neither created again nor removed since, and
each field but the time stamp holds what the latest successful `PATCH` since effectively set, or
what it was created with. -/
def Explains (tr : List (Event × Option (Reply FlowResponse))) (flowId : String)
    (flow : FlowResponse) : Prop :=
  ∃ before creation after created, tr = before ++ creation :: after ∧
    Creates flowId created creation ∧
    flowId ∉ recordMachine.createdKeys after ∧ flowId ∉ recordMachine.removedKeys after ∧
    ∀ name, name ≠ "updated_at" → flow.field name =
      (after.reverse.findSome? (patchedValue flowId name)).getD (created.field name)

theorem explains_trace (run : List Event) (flowId : String) (flow : FlowResponse)
    (h : (exec step run Config.empty).2.flows.get? flowId = some flow) :
    Explains (trace step run Config.empty) flowId flow := by
  have hrec : recordMachine.record (exec step run Config.empty).2 flowId = some flow.field :=
    congrArg (Option.map FlowResponse.field) h
  have hprovenance := recordMachine.exists_creation record_empty run flowId _ hrec
  exact hprovenance.explained recordMachine (fun _ _ => creates_of_write)
    (fun _ hname => assigned_write hname)

/-- An event that is answered 404 or 409 changes nothing. -/
theorem config_eq_of_status {event : Event} {c : Config} {reply : Reply FlowResponse}
    (h : (step event c).1 = some reply)
    (hstatus : reply.statusCode = 404 ∨ reply.statusCode = 409) : (step event c).2 = c := by
  have he := step_effect event c
  generalize step event c = r at h he ⊢
  cases he with
  | build => cases h
  | read _ | refused _ | idle => rfl
  | patch _ | delete _ | insert _ =>
    obtain rfl := Option.some.inj h
    simp at hstatus

/-- Payloads that set no field in common. -/
def Disjoint (p q : FlowUpdate) : Prop :=
  ∀ name, effective (targetNullable FlowResponse.modelFields) p.fields name = none ∨
    effective (targetNullable FlowResponse.modelFields) q.fields name = none

theorem disjoint_sample : Disjoint .clear .archive := by
  intro name
  by_cases hname : name = "status"
  · exact .inl (by rw [hname]; rfl)
  · refine .inr ?_
    by_cases hn : "name" = name <;> by_cases hdescription : "description" = name <;>
      simp [effective, FlowUpdate.fields, FlowUpdate.archive, Dict.lookup, OptField.toField,
        Ne.symm hname, hn, hdescription]

theorem applyFlowUpdate_comm {p q : FlowUpdate} (hd : Disjoint p q) (t₁ t₂ t₃ t₄ : Datetime)
    (flow : FlowResponse) :
    applyFlowUpdate p t₄ (applyFlowUpdate q t₃ flow) =
      { applyFlowUpdate q t₂ (applyFlowUpdate p t₁ flow) with updatedAt := .datetime t₄ } := by
  have hfield : ∀ name, name ≠ "updated_at" →
      (applyFlowUpdate p t₄ (applyFlowUpdate q t₃ flow)).field name =
        (applyFlowUpdate q t₂ (applyFlowUpdate p t₁ flow)).field name := by
    intro name hname
    simp only [FlowResponse.field_applyFlowUpdate, FlowUpdate.assigns, if_neg hname]
    exact getD_getD_comm (hd name) _
  have hid := hfield "id" (by decide)
  have hname := hfield "name" (by decide)
  have hdescription := hfield "description" (by decide)
  have hstatus := hfield "status" (by decide)
  have hcreated := hfield "created_at" (by decide)
  rw [FlowResponse.mk.injEq]
  exact ⟨hid, hname, hdescription, hstatus, hcreated, rfl⟩

theorem step_updateFlow {flowId : String} {existing : FlowResponse} {c : Config}
    (hget : c.flows.get? flowId = some existing) (p : FlowUpdate) (env : Env) :
    step (.run (.updateFlow flowId p) env) c =
      (some ⟨200, .record (applyFlowUpdate p env.now existing)⟩,
        { c with flows := c.flows.set flowId (applyFlowUpdate p env.now existing) }) := by
  simp only [step, handle, run_updateFlow, hget]
  rfl

/-- Two `PATCH`es in a row of a flow that is there. -/
theorem exec_updateFlow_updateFlow {flowId : String} {existing : FlowResponse} {c : Config}
    (hget : c.flows.get? flowId = some existing) (p q : FlowUpdate) (env env' : Env) :
    (exec step [.run (.updateFlow flowId p) env, .run (.updateFlow flowId q) env'] c).1.map
        (Option.map Reply.statusCode) = [some 200, some 200] ∧
      (exec step [.run (.updateFlow flowId p) env,
        .run (.updateFlow flowId q) env'] c).2.flows.get? flowId =
          some (applyFlowUpdate q env'.now (applyFlowUpdate p env.now existing)) := by
  have hget' : (Config.mk (c.flows.set flowId (applyFlowUpdate p env.now existing))
      c.waiting).flows.get? flowId = some (applyFlowUpdate p env.now existing) :=
    Dict.get?_set_self _ _ _
  simp only [exec_cons, exec_nil, step_updateFlow hget, step_updateFlow hget']
  exact ⟨rfl, Dict.get?_set_self _ _ _⟩

theorem exists_of_updateFlow {p : FlowUpdate} {flowId : String} {c : Config} {env : Env}
    (h : (step (.run (.updateFlow flowId p) env) c).1.map Reply.statusCode = some 200) :
    ∃ existing, c.flows.get? flowId = some existing := by
  cases hget : c.flows.get? flowId with
  | some existing => exact ⟨existing, rfl⟩
  | none =>
    simp only [step, handle, run_updateFlow, hget] at h
    simp [Reply.ofResult] at h

/-- **Disjoint `PATCH`es commute**, up to the time stamp. -/
theorem updateFlow_comm {p q : FlowUpdate} (hd : Disjoint p q) {flowId : String} {c : Config}
    {env₁ env₂ : Env} (env₃ env₄ : Env)
    (h : (exec step [.run (.updateFlow flowId p) env₁, .run (.updateFlow flowId q) env₂] c).1.map
      (Option.map Reply.statusCode) = [some 200, some 200]) :
    (exec step [.run (.updateFlow flowId q) env₃, .run (.updateFlow flowId p) env₄] c).1.map
        (Option.map Reply.statusCode) = [some 200, some 200] ∧
      ∃ flow, (exec step [.run (.updateFlow flowId p) env₁,
          .run (.updateFlow flowId q) env₂] c).2.flows.get? flowId = some flow ∧
        (exec step [.run (.updateFlow flowId q) env₃,
          .run (.updateFlow flowId p) env₄] c).2.flows.get? flowId =
            some { flow with updatedAt := .datetime env₄.now } := by
  rw [exec_cons, List.map_cons, List.cons.injEq] at h
  obtain ⟨existing, hget⟩ := exists_of_updateFlow h.1
  obtain ⟨-, hrecord⟩ := exec_updateFlow_updateFlow hget p q env₁ env₂
  obtain ⟨hstatus', hrecord'⟩ := exec_updateFlow_updateFlow hget q p env₃ env₄
  refine ⟨hstatus', _, hrecord, ?_⟩
  rw [hrecord', applyFlowUpdate_comm hd env₁.now env₂.now env₃.now env₄.now]

end Flow

/-- **Last writer wins, field by field**, in both stores and for every order in which the handlers
get the lock.  A PATCH that is answered 404 or 409 contributes nothing, and two successful PATCHes
of one record that set no field in common give the same record in either order, but for
`updated_at`. -/
theorem last_writer_wins :
    (∀ (run : List Uc.Step) (userId : String) (user : UserResponse),
      (exec Uc.step run .empty).2.users.get? userId = some user →
        Uc.Explains (trace Uc.step run .empty) userId user) ∧
    (∀ (i : Uc.Step) (s : Uc.Store),
      (Uc.step i s).1.statusCode = 404 ∨ (Uc.step i s).1.statusCode = 409 →
        (Uc.step i s).2 = s) ∧
    (∀ (p q : UserUpdate) (userId : String) (s : Uc.Store) (env₁ env₂ env₃ env₄ : Env),
      Uc.Disjoint p q →
      (exec Uc.step [⟨.updateUser userId p, env₁⟩, ⟨.updateUser userId q, env₂⟩] s).1.map
        Reply.statusCode = [200, 200] →
      (exec Uc.step [⟨.updateUser userId q, env₃⟩, ⟨.updateUser userId p, env₄⟩] s).1.map
        Reply.statusCode = [200, 200] ∧
      ∃ user, (exec Uc.step [⟨.updateUser userId p, env₁⟩,
          ⟨.updateUser userId q, env₂⟩] s).2.users.get? userId = some user ∧
        (exec Uc.step [⟨.updateUser userId q, env₃⟩,
          ⟨.updateUser userId p, env₄⟩] s).2.users.get? userId =
            some { user with updatedAt := .datetime env₄.now }) ∧
    (∀ (run : List Flow.Event) (flowId : String) (flow : FlowResponse),
      (exec Flow.step run .empty).2.flows.get? flowId = some flow →
        Flow.Explains (trace Flow.step run .empty) flowId flow) ∧
    (∀ (event : Flow.Event) (c : Flow.Config) (reply : Reply FlowResponse),
      (Flow.step event c).1 = some reply → reply.statusCode = 404 ∨ reply.statusCode = 409 →
        (Flow.step event c).2 = c) ∧
    (∀ (p q : FlowUpdate) (flowId : String) (c : Flow.Config) (env₁ env₂ env₃ env₄ : Env),
      Flow.Disjoint p q →
      (exec Flow.step [.run (.updateFlow flowId p) env₁,
        .run (.updateFlow flowId q) env₂] c).1.map (Option.map Reply.statusCode) =
          [some 200, some 200] →
      (exec Flow.step [.run (.updateFlow flowId q) env₃,
        .run (.updateFlow flowId p) env₄] c).1.map (Option.map Reply.statusCode) =
          [some 200, some 200] ∧
      ∃ flow, (exec Flow.step [.run (.updateFlow flowId p) env₁,
          .run (.updateFlow flowId q) env₂] c).2.flows.get? flowId = some flow ∧
        (exec Flow.step [.run (.updateFlow flowId q) env₃,
          .run (.updateFlow flowId p) env₄] c).2.flows.get? flowId =
            some { flow with updatedAt := .datetime env₄.now }) :=
  ⟨Uc.explains_trace, fun _ _ h => Uc.store_eq_of_status h,
    fun _ _ _ _ _ _ env₃ env₄ hd h => Uc.updateUser_comm hd env₃ env₄ h,
    Flow.explains_trace, fun _ _ _ h hstatus => Flow.config_eq_of_status h hstatus,
    fun _ _ _ _ _ _ env₃ env₄ hd h => Flow.updateFlow_comm hd env₃ env₄ h⟩

/-- A rename and the clearing of a description, each explained; and a change of the email address
beside the rename, in both orders. -/
theorem last_writer_wins_sample :
    Uc.Explains (trace Uc.step Uc.renameRun .empty) (Uc.userIdOf .one)
      (applyUserUpdate .toAlicia 1 (Uc.newUser .alice ⟨.one, 0⟩)) ∧
    (Uc.step ⟨.deleteUser "user_1", ⟨.one, 0⟩⟩ .empty).2 = .empty ∧
    (∃ user, (exec Uc.step [⟨.updateUser (Uc.userIdOf .one) .toAlicia, ⟨.one, 1⟩⟩,
          ⟨.updateUser (Uc.userIdOf .one) .suspend, ⟨.one, 2⟩⟩]
        (Uc.created .alice ⟨.one, 0⟩ .empty)).2.users.get? (Uc.userIdOf .one) = some user ∧
      (exec Uc.step [⟨.updateUser (Uc.userIdOf .one) .suspend, ⟨.one, 3⟩⟩,
          ⟨.updateUser (Uc.userIdOf .one) .toAlicia, ⟨.one, 4⟩⟩]
        (Uc.created .alice ⟨.one, 0⟩ .empty)).2.users.get? (Uc.userIdOf .one) =
          some { user with updatedAt := .datetime 4 }) ∧
    Flow.Explains (trace Flow.step Flow.clearRun .empty) (Flow.flowIdOf .one)
      (applyFlowUpdate .clear 1 (Flow.newFlow .release ⟨.one, 0⟩)) ∧
    (Flow.step (.run (.deleteFlow "flow_1") ⟨.one, 0⟩) .empty).2 = .empty ∧
    ∃ flow, (exec Flow.step [.run (.updateFlow (Flow.flowIdOf .one) .clear) ⟨.one, 1⟩,
          .run (.updateFlow (Flow.flowIdOf .one) .archive) ⟨.one, 2⟩]
        (exec Flow.step Flow.clearRun .empty).2).2.flows.get? (Flow.flowIdOf .one) = some flow ∧
      (exec Flow.step [.run (.updateFlow (Flow.flowIdOf .one) .archive) ⟨.one, 3⟩,
          .run (.updateFlow (Flow.flowIdOf .one) .clear) ⟨.one, 4⟩]
        (exec Flow.step Flow.clearRun .empty).2).2.flows.get? (Flow.flowIdOf .one) =
          some { flow with updatedAt := .datetime 4 } := by
  obtain ⟨hexplains, hrefused, hcomm, hexplains', hrefused', hcomm'⟩ := last_writer_wins
  exact ⟨hexplains _ _ _ rfl, hrefused _ _ (.inl rfl),
    (hcomm _ _ _ _ _ _ ⟨.one, 3⟩ ⟨.one, 4⟩ Uc.disjoint_sample rfl).2,
    hexplains' _ _ _ rfl, hrefused' _ _ _ rfl (.inl rfl),
    (hcomm' _ _ _ _ _ _ ⟨.one, 3⟩ ⟨.one, 4⟩ Flow.disjoint_sample rfl).2⟩

end Novon
