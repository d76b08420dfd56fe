import Novon.Data.Equiv.Thread
import Novon.Uc.Equiv.Index
import Novon.Uc.Threads

/-!
# The UC service under every schedule

With nothing between its accesses, the body of a handler does what the handler does in one step
(`eval_script`), so that what holds of the handlers one after another holds of their threads side
by side: the service is linearizable (`users_linearizable`), whatever a client is told fits one
consistent store (`answers_consistent`), and no schedule keeps a request from being answered
(`answers_all`).  Without the lock none of this is so: any two creates of one free name can both
succeed (`unlocked_creates_collide`).
-/

namespace Novon.Uc.Threads

open Run

/-! ### The handlers as one step -/

theorem run_getUserByUsername_eq (username : String) (s : Store) :
    (getUserByUsername username).run s = (Uc.getUserByUsername username).run s := by
  rw [run_getUserByUsername]
  unfold getUserByUsername
  cases hi : s.usersByUsername.get? (.str username) with
  | none => simp [hi]
  | some userId => cases h : s.users.get? userId <;> simp [hi, Dict.contains, Dict.item, h]

theorem run_getUser_eq (userId : String) (s : Store) :
    (getUser userId).run s = (Uc.getUser userId).run s := by
  rw [run_getUser]
  cases h : s.users.get? userId <;> simp [getUser, Dict.contains, Dict.item, h]

theorem run_createUser_eq (payload : UserCreate) (env : Env) (s : Store) :
    (createUser payload env).run s = (Uc.createUser payload env).run s := by
  rw [run_createUser]
  by_cases h : s.usersByUsername.contains (.str payload.username.val) <;>
    simp [createUser, newUser, created, h]

theorem run_updateUser_eq (userId : String) (p : UserUpdate) (env : Env) (s : Store) :
    (updateUser userId p env).run s = (Uc.updateUser userId p env).run s := by
  unfold updateUser Uc.updateUser
  cases h : s.users.get? userId with
  | none => simp [Dict.contains, h]
  | some existing => simp [Dict.contains, Dict.item, h]

theorem run_deleteUser_eq (userId : String) (s : Store) :
    (deleteUser userId).run s = (Uc.deleteUser userId).run s := by
  rw [run_deleteUser]
  cases h : s.users.get? userId <;> simp [deleteUser, deleted, Dict.contains, Dict.item, h]

/-- With nothing between its accesses, a handler is the one step of the store. -/
theorem eval_script (i : Step) (s : Store) : (script i).eval s = step i s := by
  obtain ⟨call, env⟩ := i
  cases call with
  | listUsers => rfl
  | getUserByUsername n =>
    simp only [script, step, handle, Routine.eval_respond, run_getUserByUsername_eq]
    rfl
  | getUser i =>
    simp only [script, step, handle, Routine.eval_respond, run_getUser_eq]
    rfl
  | createUser p =>
    simp only [script, step, handle, Routine.eval_respond, run_createUser_eq]
    rfl
  | updateUser i p =>
    simp only [script, step, handle, Routine.eval_respond, run_updateUser_eq]
    rfl
  | deleteUser i =>
    simp only [script, step, handle, Routine.eval_respond, run_deleteUser_eq]
    rfl

theorem linearization_after (s : Store) (moves : List (Move Step)) :
    Pool.Linearization step s (after s moves) :=
  (Pool.lockInv_after script s moves).linearization eval_script

/-- **The UC service is linearizable**: under every schedule of the dictionary operations of any
number of handlers, each thread answers what its request answers when the requests are served one
at a time in the order in which their threads took `_USERS_LOCK`, whenever the lock is free the two
dictionaries are what this serial run leaves, and a request that was answered before another
arrived comes before it. -/
theorem users_linearizable (s : Store) (moves later : List (Move Step)) :
    Pool.Linearization step s (after s (moves ++ later)) ∧
    ∀ (t u k l : ℕ) (i j : Step), ((after s moves).reply? t).isSome →
      (after s moves).threads.length ≤ u →
      (after s (moves ++ later)).acquired[k]? = some (t, i) →
      (after s (moves ++ later)).acquired[l]? = some (u, j) → k < l :=
  ⟨linearization_after s (moves ++ later), fun _ _ _ _ _ _ => Pool.lt_of_returned⟩

/-! ### What clients are told -/

/-- What the answer to a call says about the store: a list names no id and no username twice, a
record is the one asked for, and a refusal is a 404 or a 409. -/
def Answers : UcCall → Reply UserResponse → Prop
  | .listUsers, r => ∃ users, r = ⟨200, .records users⟩ ∧
      users.Pairwise fun u v => u.id ≠ v.id ∧ u.username ≠ v.username
  | .getUserByUsername n, r =>
    r.statusCode = 404 ∨ ∃ user, r = ⟨200, .record user⟩ ∧ user.username = .str n
  | .getUser i, r => r.statusCode = 404 ∨ ∃ user, r = ⟨200, .record user⟩ ∧ user.id = .str i
  | .createUser p, r => r.statusCode = 409 ∨
      ∃ user, r = ⟨201, .record user⟩ ∧ user.username = .str p.username.val
  | .updateUser i _, r => (r.statusCode = 404 ∨ r.statusCode = 409) ∨
      ∃ user, r = ⟨200, .record user⟩ ∧ user.id = .str i
  | .deleteUser _, r => r.statusCode = 404 ∨ r = ⟨204, .empty⟩

theorem pairwise_values {s : Store} (h : Consistent s) :
    s.users.values.Pairwise fun u v => u.id ≠ v.id ∧ u.username ≠ v.username := by
  have hkeys : s.users.entries.Pairwise fun x y => x.1 ≠ y.1 :=
    List.pairwise_map.mp s.users.nodup_keys
  unfold Dict.values
  rw [List.pairwise_map]
  refine hkeys.imp_of_mem fun {x y} hx hy hne => ?_
  have hgx := Dict.get?_eq_some_iff.mpr (show (x.1, x.2) ∈ s.users.entries from hx)
  have hgy := Dict.get?_eq_some_iff.mpr (show (y.1, y.2) ∈ s.users.entries from hy)
  constructor
  · rw [h.id_eq _ _ hgx, h.id_eq _ _ hgy]
    simpa using hne
  · exact fun hname => hne (h.index.key_unique hgx hgy hname)

theorem answers_of_consistent {s : Store} (h : Consistent s) (i : Step) :
    Answers i.call (step i s).1 := by
  obtain ⟨call, env⟩ := i
  cases call with
  | listUsers => exact ⟨s.users.values, rfl, pairwise_values h⟩
  | getUserByUsername n =>
    rw [step, handle, run_getUserByUsername]
    cases hget : (s.usersByUsername.get? (.str n)).bind s.users.get? with
    | none => exact .inl rfl
    | some user =>
      obtain ⟨userId, hid, huser⟩ := Option.bind_eq_some_iff.mp hget
      obtain ⟨user', huser', hname⟩ := (h.index _ _).mp hid
      obtain rfl : user' = user := Option.some.inj (huser'.symm.trans huser)
      exact .inr ⟨user', rfl, hname⟩
  | getUser userId =>
    rw [step, handle, run_getUser]
    cases hget : s.users.get? userId with
    | none => exact .inl rfl
    | some user => exact .inr ⟨user, rfl, h.id_eq _ _ hget⟩
  | createUser p =>
    rw [step, handle, run_createUser]
    split
    · exact .inl rfl
    · exact .inr ⟨newUser p env, rfl, rfl⟩
  | updateUser userId p =>
    rw [step, handle, run_updateUser]
    cases hget : s.users.get? userId with
    | none => exact .inl (.inl rfl)
    | some existing =>
      dsimp only
      split
      · exact .inl (.inr rfl)
      · exact .inr ⟨_, rfl, h.id_eq userId existing hget⟩
  | deleteUser userId =>
    rw [step, handle, run_deleteUser]
    cases s.users.get? userId with
    | none => exact .inl rfl
    | some user => exact .inr rfl

/-- **Whatever clients are told fits one consistent store**: under every schedule in which `uuid4`
does not repeat, whenever `_USERS_LOCK` is free the dictionaries are mutually inverse, and every
answer is the one that its request asks of such a store; in particular nobody is ever answered with
a 500, and no list shows a username twice. -/
theorem answers_consistent (moves : List (Move Step))
    (hdrawn : NoRepeat ((after .empty moves).acquired.map Prod.snd)) :
    ((after .empty moves).locked = false → Consistent (after .empty moves).shared) ∧
    ∀ t r, (after .empty moves).reply? t = some r →
      ∃ i th, (after .empty moves).threads[t]? = some (i, th) ∧ Answers i.call r := by
  have hlin := linearization_after .empty moves
  generalize after .empty moves = p at hdrawn hlin ⊢
  constructor
  · intro hfree
    rw [hlin.state hfree]
    exact (runInv_exec _ hdrawn).consistent
  · intro t r hr
    obtain ⟨i, th, before, hget, ⟨later, hprefix⟩, rfl⟩ := hlin.exists_before hr
    -- the requests before this one have left the store consistent
    have hbefore : NoRepeat before := by
      rw [← hprefix, List.append_assoc] at hdrawn
      exact hdrawn.of_append
    exact ⟨i, th, hget, answers_of_consistent (runInv_exec before hbefore).consistent i⟩

/-- Two clients register one name; the second is refused the lock while the first is served. -/
def aliceTwice : List (Move Step) :=
  [.start ⟨.createUser .alice, ⟨.one, 0⟩⟩, .start ⟨.createUser .alice, ⟨.two, 1⟩⟩] ++
    [0, 1, 0, 0, 1, 0, 0, 0, 1, 1, 1, 1].map .run

theorem answers_consistent_aliceTwice :
    ((after .empty aliceTwice).reply? 1).map Reply.statusCode = some 409 ∧
      Consistent (after .empty aliceTwice).shared ∧
      ∀ t r, (after .empty aliceTwice).reply? t = some r →
        ∃ i th, (after .empty aliceTwice).threads[t]? = some (i, th) ∧ Answers i.call r := by
  obtain ⟨hconsistent, hanswers⟩ := answers_consistent aliceTwice (by decide)
  exact ⟨rfl, hconsistent rfl, hanswers⟩

/-- **Every request can be answered**: whatever the schedule has been, some continuation without
further requests brings every thread to its answer, and leaves the store that serving all the
requests one after another, in some order, leaves. -/
theorem answers_all (s : Store) (moves : List (Move Step)) :
    ∃ more, Pool.OnlyRuns more ∧
      (∀ t < (after s moves).threads.length, ((after s (moves ++ more)).reply? t).isSome) ∧
      ∃ order, order.Perm ((after s moves).threads.map Prod.fst) ∧
        (after s (moves ++ more)).shared = (exec step order s).2 := by
  obtain ⟨more, hruns, hrequests, hall⟩ := Pool.exists_completion script s moves
  have hlen := congrArg List.length hrequests
  rw [List.length_map, List.length_map] at hlen
  obtain ⟨hfree, hperm⟩ := (Pool.lockInv_after script s (moves ++ more)).perm_of_returned hall
  refine ⟨more, hruns, fun t ht => hall t (hlen ▸ ht), _, hrequests ▸ hperm, ?_⟩
  exact (linearization_after s (moves ++ more)).state hfree

/-! ### Without the lock -/

/-- The dictionary operations of `create_user`. -/
theorem script_createUser (p : UserCreate) (env : Env) :
    script ⟨.createUser p, env⟩ = .access id fun s =>
      if s.usersByUsername.contains (.str p.username.val) then
        .done ⟨409, .detail "Username already exists"⟩
      else
        .access (fun s => { s with users := s.users.set (userIdOf env.uuid) (newUser p env) })
          fun _ => .access (fun s => { s with
            usersByUsername := s.usersByUsername.set (.str p.username.val) (userIdOf env.uuid) })
          fun _ => .done ⟨201, .record (newUser p env)⟩ := by
  refine congrArg (Script.access id) (funext fun s => ?_)
  by_cases h : s.usersByUsername.contains (.str p.username.val) = true
  · simp only [h]
    rfl
  · simp only [h]
    rfl

/-- Two creates: each looks for the name before either has written. -/
def createsApart (i j : Step) : List (Move Step) :=
  [.start i, .start j, .run 0, .run 1, .run 0, .run 0, .run 0, .run 1, .run 1, .run 1]

/-- **Without the lock two creates of one name both succeed**: in every store in which the name is
free, under some schedule of the same dictionary operations both are answered 201 and both users
are stored, while in either order of serving the two requests one of them is answered 409. -/
theorem unlocked_creates_collide (s : Store) (p p' : UserCreate) (env env' : Env)
    (hfree : s.usersByUsername.contains (.str p.username.val) = false)
    (hname : p'.username.val = p.username.val) (hdrawn : env.uuid ≠ env'.uuid) :
    ∃ moves,
      let q := Pool.after (Pool.withoutLock script) s moves
      q.reply? 0 = some ⟨201, .record (newUser p env)⟩ ∧
      q.reply? 1 = some ⟨201, .record (newUser p' env')⟩ ∧
      q.shared.users.get? (userIdOf env.uuid) = some (newUser p env) ∧
      q.shared.users.get? (userIdOf env'.uuid) = some (newUser p' env') ∧
      (∃ r ∈ (exec step [⟨.createUser p, env⟩, ⟨.createUser p', env'⟩] s).1,
        r.statusCode = 409) ∧
      ∃ r ∈ (exec step [⟨.createUser p', env'⟩, ⟨.createUser p, env⟩] s).1,
        r.statusCode = 409 := by
  refine ⟨createsApart ⟨.createUser p, env⟩ ⟨.createUser p', env'⟩, ?_⟩
  have hrun : Pool.after (Pool.withoutLock script) s
      (createsApart ⟨.createUser p, env⟩ ⟨.createUser p', env'⟩) =
      ⟨created p' env' (created p env s), false,
        [(⟨.createUser p, env⟩, .returned ⟨201, .record (newUser p env)⟩),
          (⟨.createUser p', env'⟩, .returned ⟨201, .record (newUser p' env')⟩)], []⟩ := by
    simp [createsApart, Pool.after, Pool.withoutLock, Pool.init, exec_cons, Pool.step,
      script_createUser, Pool.advance, Pool.put, hfree, hname, created]
  have hids : userIdOf env.uuid ≠ userIdOf env'.uuid := userIdOf_injective.ne hdrawn
  -- one after the other, the second create finds the name
  have hserial : ∀ (q q' : UserCreate) (e e' : Env), q.username.val = p.username.val →
      q'.username.val = p.username.val →
      ∃ r ∈ (exec step [⟨.createUser q, e⟩, ⟨.createUser q', e'⟩] s).1, r.statusCode = 409 := by
    intro q q' e e' hq hq'
    have hfirst : (step ⟨.createUser q, e⟩ s).2 = created q e s := by
      rw [step, handle, run_createUser, hq, hfree]
      rfl
    have htaken : (created q e s).usersByUsername.contains (.str q'.username.val) = true := by
      rw [hq', ← hq, created, Dict.contains, Dict.get?_set_self]
      rfl
    have hsecond : (step ⟨.createUser q', e'⟩ (created q e s)).1 =
        ⟨409, .detail "Username already exists"⟩ := by
      rw [step, handle, run_createUser, htaken]
      rfl
    refine ⟨⟨409, .detail "Username already exists"⟩, ?_, rfl⟩
    rw [exec_cons, hfirst, exec_cons, hsecond]
    exact List.mem_cons_of_mem _ List.mem_cons_self
  dsimp only
  rw [hrun]
  refine ⟨rfl, rfl, ?_, ?_, hserial p p' env env' rfl hname, hserial p' p env' env hname rfl⟩
  · rw [created, created, Dict.get?_set_of_ne _ _ hids, Dict.get?_set_self]
  · rw [created, Dict.get?_set_self]

/-- Two clients register the same name. -/
theorem unlocked_creates_collide_alice : ∃ moves,
    ((Pool.after (Pool.withoutLock script) Store.empty moves).reply? 1).map Reply.statusCode =
      some 201 := by
  obtain ⟨moves, -, h, -⟩ := unlocked_creates_collide Store.empty .alice .alice ⟨.one, 0⟩ ⟨.two, 1⟩
    rfl rfl (by decide)
  exact ⟨moves, congrArg (Option.map Reply.statusCode) h⟩

end Novon.Uc.Threads
