import Novon.Flow.Equiv.Server
import Novon.Uc.Equiv.Server

/-!
# Client endpoints and server routes

The two clients build paths from templates, the two servers match them against route tables.  For
every id that is a segment of its own the tables agree, except that `GET /users/by-username`
belongs to the static route, also with a newline after it.
-/

namespace Novon

open Router

/-- Where the request of a UC call is dispatched. -/
def Uc.dispatched (lib : HttpLib) (headers : Dict String String) (call : UcCall) :
    Option (Uc.Endpoint × List String) :=
  match UcServiceClient.request lib headers call with
  | .ok request => Uc.target request
  | .error _ => none

/-- Where the request of a Flow call is dispatched. -/
def Flow.dispatched (lib : HttpLib) (headers : Dict String String) (call : FlowCall) :
    Option (Flow.Endpoint × List String) :=
  match FlowServiceClient.request lib headers call with
  | .ok request => Flow.target request
  | .error _ => none

variable (lib : HttpLib) (headers : Dict String String)

theorem Uc.dispatched_eq (call : UcCall) :
    Uc.dispatched lib headers call = Uc.target (UcServiceClient.sent lib headers call) := by
  rw [Uc.dispatched, UcServiceClient.request_eq]

theorem Flow.dispatched_eq (call : FlowCall) :
    Flow.dispatched lib headers call = Flow.target (FlowServiceClient.sent lib headers call) := by
  rw [Flow.dispatched, FlowServiceClient.request_eq]

/-- **The two tables agree.**  An id that is not empty and no dot segment is dispatched to the
handler of the endpoint's name, with exactly that id, if and only if there is no slash in it and,
for `get_user`, it is not the name of the static route, alone or with a newline after it. -/
theorem dispatch_agrees (id : String) (hne : id ≠ "") (hdot : id ≠ "." ∧ id ≠ "..") :
    (Uc.dispatched lib headers (.getUser id) = some (.getUser, [id]) ↔
      '/' ∉ id.toList ∧ id ≠ "by-username" ∧ id ≠ "by-username\n") ∧
    (∀ p, Uc.dispatched lib headers (.updateUser id p) = some (.updateUser, [id]) ↔
      '/' ∉ id.toList) ∧
    (Uc.dispatched lib headers (.deleteUser id) = some (.deleteUser, [id]) ↔ '/' ∉ id.toList) ∧
    (Flow.dispatched lib headers (.getFlow id) = some (.getFlow, [id]) ↔ '/' ∉ id.toList) ∧
    (∀ p, Flow.dispatched lib headers (.updateFlow id p) = some (.updateFlow, [id]) ↔
      '/' ∉ id.toList) ∧
    (Flow.dispatched lib headers (.deleteFlow id) = some (.deleteFlow, [id]) ↔
      '/' ∉ id.toList) := by
  have hid : isDotSegment id = false := by simp [isDotSegment, hdot]
  have haddr : Addressable id ↔ '/' ∉ id.toList := ⟨fun h => h.2.1, fun h => ⟨hne, h, hid⟩⟩
  simp only [Uc.dispatched_eq, Flow.dispatched_eq, Uc.target_getUser lib headers hid,
    Uc.target_updateUser, Uc.target_deleteUser, Flow.target_getFlow lib headers hid,
    Flow.target_updateFlow, Flow.target_deleteFlow, haddr]
  refine ⟨?_, fun p => ?_, ?_, ?_, fun p => ?_, ?_⟩
  · by_cases hby : id ∈ Uc.staticIds
    · have hids : ¬ (id ≠ "by-username" ∧ id ≠ "by-username\n") := by
        simpa [Uc.staticIds, imp_iff_not_or, or_comm] using hby
      simp [hby, hids]
    · have hids : id ≠ "by-username" ∧ id ≠ "by-username\n" := by
        simpa [Uc.staticIds] using hby
      by_cases hslash : '/' ∈ id.toList <;> simp [hby, hslash, hids]
  all_goals by_cases hslash : '/' ∈ id.toList <;> simp [hslash]

theorem dispatch_agrees_minted :
    Uc.dispatched .sample .empty (.getUser (Uc.userIdOf .one)) =
      some (.getUser, [Uc.userIdOf .one]) :=
  (dispatch_agrees .sample .empty (Uc.userIdOf .one) (by decide) (by decide)).1.mpr (by decide)

/-- The ids that do not reach their handler: the name of the static sibling, also with a newline
after it, an id with a slash in it and the dot segments. -/
theorem dispatch_disagrees :
    Uc.dispatched .sample .empty (.getUser "by-username") = some (.getUserByUsername, []) ∧
    Uc.dispatched .sample .empty (.getUser "by-username\n") = some (.getUserByUsername, []) ∧
    Uc.dispatched .sample .empty (.deleteUser "a/b") = none ∧
    Flow.dispatched .sample .empty (.deleteFlow ".") = none ∧
    Flow.dispatched .sample .empty (.deleteFlow "..") = none := by
  rw [Uc.dispatched_eq, Uc.dispatched_eq, Uc.dispatched_eq, Flow.dispatched_eq,
    Flow.dispatched_eq, Uc.target_getUser _ _ (by decide), Uc.target_getUser _ _ (by decide),
    Uc.target_deleteUser, Flow.target_deleteFlow, Flow.target_deleteFlow]
  decide

end Novon
