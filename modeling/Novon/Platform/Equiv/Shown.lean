import Novon.Flow.Equiv.Threads
import Novon.Platform.Equiv.Created
import Novon.Uc.Equiv.Threads

/-!
# The BFF shows the record that was asked for

Whatever interleaves, a call that is answered with a record is answered with the one it asks for, a
list has no id twice, and everything else is an error of the service (`shows_what_was_asked`).  The
users are those that the requests of other clients have left, served one after another: nothing that
the BFF does, loses or repeats changes them (`users_of_traffic`).
-/

namespace Novon.Platform

open Bff Run

variable {J V : Type} {d : Deployment J V} {v : Decoding V}

/-! ### The users -/

/-- The calls that the requests of other clients of the UC service are routed to. -/
def ucSteps (moves : List Move) : List Uc.Step :=
  moves.filterMap fun
    | .uc request env =>
      match Uc.route request with
      | .call call => some ⟨call, env⟩
      | _ => none
    | _ => none

/-- **Step lemma**: only a request of another client changes users. -/
theorem uc_move (m : Move) (g : Gateway.Traffic) :
    (Gateway.move d v m g).2.stores.uc = (exec Uc.step (ucSteps [m]) g.stores.uc).2 := by
  have htouches := touches_move (d := d) (v := v) m g
  generalize (Gateway.move d v m g).2.stores = s at htouches ⊢
  cases htouches with
  | inbound | read | create _ _ | flow => rfl
  | @uc request env =>
    show (Uc.serve d.ucFramework request env g.stores.uc).2 = _
    unfold Uc.serve ucSteps
    cases hroute : Uc.route request <;> simp [hroute, Routed.serve, exec_cons, Uc.step]

theorem uc_exec (moves : List Move) :
    (exec (Gateway.move d v) moves .empty).2.stores.uc =
      (exec Uc.step (ucSteps moves) .empty).2 := by
  induction moves using List.reverseRecOn with
  | nil => rfl
  | append_singleton moves m ih =>
    have hsplit : ucSteps (moves ++ [m]) = ucSteps moves ++ ucSteps [m] := List.filterMap_append
    rw [exec_concat, uc_move, ih, hsplit, exec_append]

/-- **Run lemma: nothing that the BFF does changes users.** -/
theorem users_of_traffic (h : d.Reads v) {moves : List Move}
    (hdots : ∀ user request uuids, .inbound user request uuids ∈ moves → d.NoDots user request) :
    (exec d.move moves .empty).2.stores.uc = (exec Uc.step (ucSteps moves) .empty).2 := by
  rw [(exec_refines h hdots carries_empty).2.stores]
  exact uc_exec moves

/-- A user is registered and looked up by another name, and renamed to it before the lookup is
served. -/
def lookupAndRename : List Move :=
  [.uc (UcServiceClient.sent .sample .empty (.createUser .alice)) ⟨.one, 0⟩,
    .inbound getCurrentUser ⟨"GET", "/users/by-username/alicia", "", [], []⟩ (.const .two),
    .uc (UcServiceClient.sent .sample .empty (.updateUser (Uc.userIdOf .one) .toAlicia)) ⟨.two, 1⟩]

theorem lookupAndRename_noDots (user : String) (request : InboundRequest) (uuids : Stream' Uuid)
    (hmem : .inbound user request uuids ∈ lookupAndRename) :
    Deployment.sample.NoDots user request := by
  simp only [lookupAndRename, List.mem_cons, Move.inbound.injEq, reduceCtorEq,
    List.not_mem_nil, false_or, or_false] at hmem
  obtain ⟨rfl, rfl, rfl⟩ := hmem
  exact noDots_of_pathId rfl rfl

theorem users_of_traffic_renamed :
    (exec Deployment.sample.move lookupAndRename .empty).2.stores.uc =
      (exec Uc.step [⟨.createUser .alice, ⟨.one, 0⟩⟩,
        ⟨.updateUser (Uc.userIdOf .one) .toAlicia, ⟨.two, 1⟩⟩] .empty).2 :=
  users_of_traffic Deployment.sample_reads lookupAndRename_noDots

/-! ### The flows -/

open Flow.Threads (Keyed)

/-- **Step lemma**: every move keeps the flows under their ids. -/
theorem keyed_move (m : Move) {g : Gateway.Traffic} (h : Keyed g.stores.flow) :
    Keyed (Gateway.move d v m g).2.stores.flow := by
  have htouches := touches_move (d := d) (v := v) m g
  generalize (Gateway.move d v m g).2.stores = s at htouches ⊢
  cases htouches with
  | inbound | read | uc => exact h
  | create payload env =>
    have hcreated := h.serve ⟨.createFlow payload, env⟩
    rw [Flow.Threads.serve, Flow.handle, Flow.run_createFlow] at hcreated
    exact hcreated
  | @flow request env =>
    exact Routed.serve_inv (P := Keyed) (fun call env _ hs => hs.serve ⟨call, env⟩) request
      (Flow.route request) env h

theorem keyed_exec (moves : List Move) :
    Keyed (exec (Gateway.move d v) moves .empty).2.stores.flow :=
  exec_invariant (Gateway.move d v) (fun _ => True) (fun _ g => Keyed g.stores.flow) .empty
    (fun _ _ _ => trivial) Flow.Threads.keyed_empty (fun _ m _ _ h => keyed_move m h) moves trivial

/-! ### What callers of the BFF see -/

/-- What the answer of a service to a call shows: the record that was asked for, or that it is not
there. -/
def Shows (v : Decoding V) (clients : AppClients) : BffCall → Answer V → Prop
  | .listFlows, a => ∃ flows, a = .bff 200 (.result (.value (v.flows flows))) ∧
      flows.Pairwise fun f g => f.id ≠ g.id
  | .getFlow id, a => a = Gateway.notFound clients.flow ∨
      ∃ flow, flow.id = .str id ∧ a = .bff 200 (.result (.value (v.flow flow)))
  | .createFlow p, a => ∃ flow, flow.name = .str p.name.val ∧
      a = .bff 201 (.result (.value (v.flow flow)))
  | .getUser id, a => a = Gateway.notFound clients.uc ∨
      (id ∈ Uc.staticIds ∧ a = Gateway.unprocessable clients.uc) ∨
      ∃ user, user.id = .str id ∧ a = .bff 200 (.result (.value (v.user user)))
  | .getUserByUsername name, a => a = Gateway.notFound clients.uc ∨
      ∃ user, user.username = .str name ∧ a = .bff 200 (.result (.value (v.user user)))
  | .getFlowWithOwner id, a => a = Gateway.notFound clients.flow ∨
      ∃ flow, flow.id = .str id ∧ a = .bff 200 (.flowWithOwner (.value (v.flow flow)))

theorem shows_answer {s : Stores} (huc : Uc.Consistent s.uc) (hflow : Keyed s.flow)
    (clients : AppClients) (env : Env) (call : BffCall) :
    Shows v clients call (Gateway.answer v clients env s call).1 := by
  cases call with
  | listFlows => exact ⟨s.flow.values, rfl, hflow.pairwise_values⟩
  | createFlow payload => exact ⟨Flow.newFlow payload env, rfl, rfl⟩
  | getFlow id | getFlowWithOwner id =>
    rw [Gateway.answer]
    cases hget : s.flow.get? id with
    | none => exact .inl rfl
    | some flow => exact .inr ⟨flow, hflow id flow hget, rfl⟩
  | getUser id =>
    rw [Gateway.answer]
    by_cases hby : id ∈ Uc.staticIds
    · rw [if_pos hby]
      exact .inr (.inl ⟨hby, rfl⟩)
    · rw [if_neg hby]
      cases hget : s.uc.users.get? id with
      | none => exact .inl rfl
      | some user => exact .inr (.inr ⟨user, huc.id_eq id user hget, rfl⟩)
  | getUserByUsername name =>
    rw [Gateway.answer]
    cases hget : (s.uc.usersByUsername.get? (.str name)).bind s.uc.users.get? with
    | none => exact .inl rfl
    | some user =>
      obtain ⟨userId, hname, huser⟩ := Option.bind_eq_some_iff.mp hget
      obtain ⟨user', huser', husername⟩ := (huc.index (.str name) userId).mp hname
      obtain rfl := Option.some.inj (huser.symm.trans huser')
      exact .inr ⟨user, husername, rfl⟩

/-- **The BFF shows the record that was asked for**: in every run in which `uuid4` does not repeat,
every attempt that is answered shows what its call asks for. -/
theorem shows_what_was_asked (h : d.Reads v) {moves : List Move}
    (hdots : ∀ user request uuids, .inbound user request uuids ∈ moves → d.NoDots user request)
    (hdrawn : Uc.NoRepeat (ucSteps moves)) {j : ℕ} {env : Env} {t : Traffic} {flight : Flight}
    {call : BffCall} {answer : Answer V} (ht : t = (exec d.move moves .empty).2)
    (hflight : t.flights[j]? = some flight)
    (hroute : route d.bff.framework flight.user flight.request = .call call)
    (hanswer : (d.move (.attempt j (.answered env)) t).1 = some answer) :
    Shows v d.bff.clients call answer := by
  subst ht
  obtain ⟨-, hcarries⟩ := exec_refines h hdots (carries_empty (d := d))
  rw [answer_of_carries h hcarries hflight hroute hanswer, hcarries.stores]
  refine shows_answer ?_ (keyed_exec moves) d.bff.clients env call
  rw [uc_exec]
  exact (Uc.runInv_exec _ hdrawn).consistent

def renamed : UserResponse := applyUserUpdate .toAlicia 1 (Uc.newUser .alice ⟨.one, 0⟩)

theorem shows_what_was_asked_renamed :
    (Deployment.sample.move (.attempt 0 (.answered ⟨.two, 2⟩))
      (exec Deployment.sample.move lookupAndRename .empty).2).1 =
        some (.bff 200 (.result (.value (.user renamed)))) ∧
    Shows .sample Deployment.sample.bff.clients (.getUserByUsername "alicia")
      (.bff 200 (.result (.value (.user renamed)))) := by
  have hsteps : ucSteps lookupAndRename = [⟨.createUser .alice, ⟨.one, 0⟩⟩,
      ⟨.updateUser (Uc.userIdOf .one) .toAlicia, ⟨.two, 1⟩⟩] := rfl
  have hdrawn : Uc.NoRepeat (ucSteps lookupAndRename) := by
    rw [hsteps]
    decide
  have hshown : (Deployment.sample.move (.attempt 0 (.answered ⟨.two, 2⟩))
      (exec Deployment.sample.move lookupAndRename .empty).2).1 =
        some (.bff 200 (.result (.value (.user renamed)))) := by
    rw [attempt_refines Deployment.sample_reads lookupAndRename_noDots]
    rfl
  have hwaiting : (exec (Gateway.move .sample .sample) lookupAndRename .empty).2.flights[0]? =
      some (.waiting (.getUserByUsername "alicia") 2) := rfl
  obtain ⟨lookup, hflight, hlookup⟩ :=
    (exec_refines Deployment.sample_reads lookupAndRename_noDots
      carries_empty).2.exists_flight hwaiting
  exact ⟨hshown, shows_what_was_asked Deployment.sample_reads lookupAndRename_noDots hdrawn rfl
    hflight hlookup hshown⟩

end Novon.Platform
