import Novon.Core.BaseClient
import Novon.Data.Dict
import Novon.Data.Run
import Novon.TestUtils.MockRoute

/-!
# The mock router

A `MockRouter` maps keys to routes.  Tests hold on to the routes that they register, so routes are
objects with a number, and one that `clear` has removed from the router goes on existing.

`step` is one action of a test on a router; requests are among the actions.
-/

namespace Novon.TestUtils

/-- Method, scheme, host, port and path. -/
abbrev Key : Type := String × String × String × Option ℕ × String

/-- `_route_key`. -/
def routeKey (method : String) (url : Url) : Key :=
  (BaseServiceClient.upper method, url.scheme, url.host, url.port, url.path)

variable {R E D W : Type}

def Request.key (request : Request D) : Key :=
  routeKey request.method request.url

/-- A router, the routes made by it and the program around them. -/
@[ext] structure MockRouter (R E D W : Type) where
  /-- `_routes`. -/
  routes : Dict Key ℕ
  objects : ℕ → MockRoute R E D W
  /-- How many routes there are, registered or not. -/
  made : ℕ
  env : Env R E W
  registered_lt : ∀ key ref, routes.get? key = some ref → ref < made
  /-- No route is registered twice. -/
  registered_injective : ∀ key key' ref,
    routes.get? key = some ref → routes.get? key' = some ref → key = key'

namespace MockRouter

/-- What a test does. -/
inductive Event (R E D W : Type) where
  | route (method : String) (url : Url)
  | setReturnValue (ref : ℕ) (value : Option R)
  | setSideEffect (ref : ℕ) (value : Option (SideEffect R E D W))
  | request (request : Request D)
  | resetRoute (ref : ℕ)
  | reset
  | clear

inductive Reply (R E : Type) where
  | done
  | route (ref : ℕ)
  | answer (answer : Answer R E)

/-- `MockRouter()`. -/
def new (env : Env R E W) : MockRouter R E D W where
  routes := Dict.empty
  objects := fun _ => .new
  made := 0
  env := env
  registered_lt := fun _ _ h => nomatch h
  registered_injective := fun _ _ _ h => nomatch h

/-- Replaces the route with the number `ref`. -/
def update (ref : ℕ) (f : MockRoute R E D W → MockRoute R E D W) (s : MockRouter R E D W) :
    MockRouter R E D W :=
  { s with objects := Function.update s.objects ref (f (s.objects ref)) }

/-- `_routes[key] = MockRoute()`. -/
def register (key : Key) (s : MockRouter R E D W) : MockRouter R E D W where
  routes := s.routes.set key s.made
  objects := Function.update s.objects s.made .new
  made := s.made + 1
  env := s.env
  registered_lt := by
    intro key' ref h
    rw [Dict.get?_set] at h
    split at h
    · cases h
      exact Nat.lt_succ_self _
    · exact Nat.lt_succ_of_lt (s.registered_lt key' ref h)
  registered_injective := by
    intro key₁ key₂ ref h₁ h₂
    rw [Dict.get?_set] at h₁ h₂
    split at h₁ <;> split at h₂
    · next hk₁ hk₂ => rw [hk₁, hk₂]
    · cases h₁
      exact absurd (s.registered_lt key₂ s.made h₂) (Nat.lt_irrefl _)
    · cases h₂
      exact absurd (s.registered_lt key₁ s.made h₁) (Nat.lt_irrefl _)
    · exact s.registered_injective key₁ key₂ ref h₁ h₂

/-- `route`. -/
def route (method : String) (url : Url) (s : MockRouter R E D W) :
    ℕ × MockRouter R E D W :=
  match s.routes.get? (routeKey method url) with
  | some ref => (ref, s)
  | none => (s.made, s.register (routeKey method url))

/-- `reset`. -/
def reset (s : MockRouter R E D W) : MockRouter R E D W :=
  s.routes.values.foldl (fun s ref => s.update ref .reset) s

/-- `clear`. -/
def clear (s : MockRouter R E D W) : MockRouter R E D W :=
  { s with
    routes := Dict.empty
    registered_lt := fun _ _ h => nomatch h
    registered_injective := fun _ _ _ h => nomatch h }

/-- `_routes.get(_route_key(request.method, request.url))`. -/
def find (request : Request D) (s : MockRouter R E D W) : Option ℕ :=
  s.routes.get? request.key

/-- Has the route with the number `ref` handle a request. -/
def handOver (lib : UrlLib) (ref : ℕ) (request : Request D) (s : MockRouter R E D W) :
    Answer R E × MockRouter R E D W :=
  let r := MockRoute.handle lib request (s.objects ref, s.env)
  (r.1, { s with objects := Function.update s.objects ref r.2.1, env := r.2.2 })

def unregistered (lib : UrlLib) (request : Request D) : String :=
  "No mock route registered for " ++ request.method ++ " " ++ lib.str request.url

/-- `_handle`. -/
def handle (lib : UrlLib) (request : Request D) (s : MockRouter R E D W) :
    Answer R E × MockRouter R E D W :=
  match s.find request with
  | none => (.assertionError (unregistered lib request), s)
  | some ref => s.handOver lib ref request

def step (lib : UrlLib) : Event R E D W → MockRouter R E D W → Reply R E × MockRouter R E D W
  | .route method url, s =>
    let r := s.route method url
    (.route r.1, r.2)
  | .setReturnValue ref value, s => (.done, s.update ref (.setReturnValue value))
  | .setSideEffect ref value, s => (.done, s.update ref (.setSideEffect value))
  | .request request, s =>
    let r := s.handle lib request
    (.answer r.1, r.2)
  | .resetRoute ref, s => (.done, s.update ref .reset)
  | .reset, s => (.done, s.reset)
  | .clear, s => (.done, s.clear)

/-! ### What the actions do to the routes -/

variable (lib : UrlLib) (s : MockRouter R E D W)

theorem update_objects (ref : ℕ) (f : MockRoute R E D W → MockRoute R E D W) (ref' : ℕ) :
    (s.update ref f).objects ref' = if ref' = ref then f (s.objects ref') else s.objects ref' := by
  show Function.update s.objects ref (f (s.objects ref)) ref' = _
  rw [Function.update_apply]
  split
  · next h => rw [h]
  · rfl

/-- What keeps the calls of every route keeps those of the routes in a router. -/
theorem update_calls (ref : ℕ) {f : MockRoute R E D W → MockRoute R E D W}
    (hf : ∀ route, (f route).calls = route.calls) (ref' : ℕ) :
    ((s.update ref f).objects ref').calls = (s.objects ref').calls := by
  rw [update_objects]
  split
  · exact hf _
  · rfl

theorem register_objects (key : Key) (ref : ℕ) :
    (s.register key).objects ref = if ref = s.made then .new else s.objects ref :=
  Function.update_apply _ _ _ _

theorem register_get? (key key' : Key) :
    (s.register key).routes.get? key' = if key' = key then some s.made else s.routes.get? key' :=
  Dict.get?_set _ _ _ _

/-- **Registering a URL again** gives the same route and changes nothing. -/
theorem route_of_registered {method : String} {url : Url} {ref : ℕ}
    (h : s.routes.get? (routeKey method url) = some ref) :
    s.route method url = (ref, s) := by
  unfold route
  rw [h]

theorem route_of_unregistered {method : String} {url : Url}
    (h : s.routes.get? (routeKey method url) = none) :
    s.route method url = (s.made, s.register (routeKey method url)) := by
  unfold route
  rw [h]

theorem foldl_reset (refs : List ℕ) :
    let s' := refs.foldl (fun s ref => s.update ref .reset) s
    s'.routes = s.routes ∧ s'.made = s.made ∧ s'.env = s.env ∧
      ∀ ref, s'.objects ref = if ref ∈ refs then (s.objects ref).reset else s.objects ref := by
  induction refs generalizing s with
  | nil => exact ⟨rfl, rfl, rfl, fun ref => by simp⟩
  | cons r refs ih =>
    obtain ⟨hroutes, hmade, henv, hobjects⟩ := ih (s.update r .reset)
    refine ⟨hroutes, hmade, henv, fun ref => ?_⟩
    rw [List.foldl_cons, hobjects ref, update_objects]
    by_cases hr : ref = r
    · simp [hr, MockRoute.reset]
    · simp [hr]

theorem reset_objects (ref : ℕ) :
    s.reset.objects ref =
      if ref ∈ s.routes.values then (s.objects ref).reset else s.objects ref :=
  (s.foldl_reset s.routes.values).2.2.2 ref

@[simp] theorem reset_routes : s.reset.routes = s.routes := (s.foldl_reset s.routes.values).1

@[simp] theorem reset_made : s.reset.made = s.made := (s.foldl_reset s.routes.values).2.1

@[simp] theorem reset_env : s.reset.env = s.env := (s.foldl_reset s.routes.values).2.2.1

theorem handle_of_find_none {request : Request D} (h : s.find request = none) :
    s.handle lib request = (.assertionError (unregistered lib request), s) := by
  unfold handle
  rw [h]

theorem handle_of_find {request : Request D} {ref : ℕ} (h : s.find request = some ref) :
    s.handle lib request = s.handOver lib ref request := by
  unfold handle
  rw [h]

theorem handOver_objects (ref : ℕ) (request : Request D) (ref' : ℕ) :
    (s.handOver lib ref request).2.objects ref' =
      if ref' = ref then (MockRoute.handle lib request (s.objects ref, s.env)).2.1
      else s.objects ref' :=
  Function.update_apply _ _ _ _

theorem handOver_self (ref : ℕ) (request : Request D) :
    (s.handOver lib ref request).2.objects ref =
      (MockRoute.handle lib request (s.objects ref, s.env)).2.1 := by
  rw [handOver_objects, if_pos rfl]

theorem handOver_of_ne {ref ref' : ℕ} (h : ref' ≠ ref) (request : Request D) :
    (s.handOver lib ref request).2.objects ref' = s.objects ref' := by
  rw [handOver_objects, if_neg h]

@[simp] theorem handle_made (request : Request D) : (s.handle lib request).2.made = s.made := by
  unfold handle
  cases s.find request <;> rfl

@[simp] theorem handle_routes (request : Request D) :
    (s.handle lib request).2.routes = s.routes := by
  unfold handle
  cases s.find request <;> rfl

end MockRouter

end Novon.TestUtils
