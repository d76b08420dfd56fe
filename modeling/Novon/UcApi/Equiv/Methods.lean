import Novon.Core.Equiv.Endpoints
import Novon.UcApi.Equiv.Client
import Novon.UcApi.Methods

/-!
# What the decorators make of the UC client

Decorating the methods gives the endpoints of the client's model (`buildSpec_method`), and calling
them sends what `outboundCall` says (`wrapper_method`).
-/

namespace Novon.UcServiceClient

open Decorators

variable {python : Python} {classes : Classes}

/-- The payloads of the UC API are models, and a string is none. -/
structure ModelClasses (classes : Classes) : Prop where
  str : classes.isModel "str" = false
  userCreate : classes.isModel "UserCreate" = true
  userUpdate : classes.isModel "UserUpdate" = true

theorem plainSegments_template (python : Python) (call : UcCall) :
    PlainSegments python (template call) := by
  cases call with
  | getUser _ => exact plainSegments_of_ascii (List.cons_ne_nil _ _) rfl
  | getUserByUsername _ => exact plainSegments_of_ascii (List.cons_ne_nil _ _) rfl
  | listUsers => exact plainSegments_of_ascii (List.cons_ne_nil _ _) rfl
  | createUser _ => exact plainSegments_of_ascii (List.cons_ne_nil _ _) rfl
  | updateUser _ _ => exact plainSegments_of_ascii (List.cons_ne_nil _ _) rfl
  | deleteUser _ => exact plainSegments_of_ascii (List.cons_ne_nil _ _) rfl

theorem nodup_template (call : UcCall) : (paramNames (template call)).Nodup := by
  cases call with
  | getUser _ => exact List.nodup_singleton _
  | getUserByUsername _ => exact List.nodup_nil
  | listUsers => exact List.nodup_nil
  | createUser _ => exact List.nodup_nil
  | updateUser _ _ => exact List.nodup_singleton _
  | deleteUser _ => exact List.nodup_singleton _

/-- The specification of a call's endpoint. -/
def spec (call : UcCall) : Decorators.EndpointSpec := declaredSpec (endpoint call) (template call)

/-- **Decorating the methods of the client gives its endpoints.** -/
theorem buildSpec_method (h : ModelClasses classes) (call : UcCall) :
    buildSpec python classes (endpoint call).method (templateOf (template call)) (method call) =
      .ok (spec call) := by
  have hplain := plainSegments_template python call
  cases call with
  | getUser userId =>
    have hdeclares : Declares getUser [("user_id", "str")]
        [.lit "", .lit "users", .param "user_id"] := by
      constructor <;> decide
    have hbodies : clientBodies classes [("user_id", "str")]
        [.lit "", .lit "users", .param "user_id"] = [] := clientBodies_eq_nil (by simp [h.str])
    exact buildSpec_declares hplain _ hdeclares hbodies
  | getUserByUsername username =>
    have hdeclares : Declares getUserByUsername [("username", "str")]
        [.lit "", .lit "users", .lit "by-username"] := by
      constructor <;> decide
    have hbodies : clientBodies classes [("username", "str")]
        [.lit "", .lit "users", .lit "by-username"] = [] := clientBodies_eq_nil (by simp [h.str])
    exact buildSpec_declares hplain _ hdeclares hbodies
  | listUsers =>
    have hdeclares : Declares listUsers [] [.lit "", .lit "users"] := by
      constructor <;> decide
    exact buildSpec_declares hplain _ hdeclares rfl
  | createUser payload =>
    have hdeclares : Declares createUser [("payload", "UserCreate")]
        [.lit "", .lit "users"] := by
      constructor <;> decide
    have hbodies : clientBodies classes [("payload", "UserCreate")]
        [.lit "", .lit "users"] = ["payload"] := by
      simp [clientBodies, h.userCreate, paramNames]
    exact buildSpec_declares hplain _ hdeclares hbodies
  | updateUser userId payload =>
    have hdeclares : Declares updateUser [("user_id", "str"), ("payload", "UserUpdate")]
        [.lit "", .lit "users", .param "user_id"] := by
      constructor <;> decide
    have hbodies : clientBodies classes [("user_id", "str"), ("payload", "UserUpdate")]
        [.lit "", .lit "users", .param "user_id"] = ["payload"] := by
      simp [clientBodies, h.userUpdate, paramNames]
    exact buildSpec_declares hplain _ hdeclares hbodies
  | deleteUser userId =>
    have hdeclares : Declares deleteUser [("user_id", "str")]
        [.lit "", .lit "users", .param "user_id"] := by
      constructor <;> decide
    have hbodies : clientBodies classes [("user_id", "str")]
        [.lit "", .lit "users", .param "user_id"] = [] := clientBodies_eq_nil (by simp [h.str])
    exact buildSpec_declares hplain _ hdeclares hbodies

variable (lib : HttpLib) (receiver ctx : Value)

theorem binds_methodCall (call : UcCall) :
    Binds python (method call) (methodCall lib receiver ctx (arguments call))
      (boundArguments lib receiver ctx (arguments call)) := by
  cases call with
  | getUser _ => exact ⟨rfl, rfl⟩
  | getUserByUsername _ => exact ⟨rfl, rfl⟩
  | listUsers => exact ⟨rfl, rfl⟩
  | createUser _ => exact ⟨rfl, rfl⟩
  | updateUser _ _ => exact ⟨rfl, rfl⟩
  | deleteUser _ => exact ⟨rfl, rfl⟩

theorem pathArgumentsValid (call : UcCall) :
    PathArgumentsValid (spec call) (boundArguments lib receiver ctx (arguments call)) := by
  intro name hname value hvalue
  cases call with
  | getUser userId =>
    obtain rfl := List.mem_singleton.mp hname
    cases hvalue
    exact ⟨rfl, userId, rfl⟩
  | getUserByUsername username => cases hname
  | listUsers => cases hname
  | createUser payload => cases hname
  | updateUser userId payload =>
    obtain rfl := List.mem_singleton.mp hname
    cases hvalue
    exact ⟨rfl, userId, rfl⟩
  | deleteUser userId =>
    obtain rfl := List.mem_singleton.mp hname
    cases hvalue
    exact ⟨rfl, userId, rfl⟩

/-- The body of a call is the one that the client's model sends. -/
theorem bodyArgument_boundArguments (call : UcCall) :
    bodyArgument (spec call) (boundArguments lib receiver ctx (arguments call)) =
      .ok ((outboundCall call).json.map .dumped) := by
  cases call with
  | getUser _ => rfl
  | getUserByUsername _ => rfl
  | listUsers => rfl
  | createUser _ => rfl
  | updateUser _ _ => rfl
  | deleteUser _ => rfl

theorem join_users : Router.join ["", "users"] = "/users" := by
  rw [Router.join_pair]
  decide

theorem join_user (userId : String) :
    Router.join ["", "users", Percent.quote userId] = "/users/" ++ Percent.quote userId := by
  have hprefix : "" ++ "/" ++ "users" ++ "/" = "/users/" := by decide
  rw [Router.join_triple, hprefix]

theorem join_byUsername :
    Router.join ["", "users", "by-username"] = "/users/by-username" := by
  rw [Router.join_triple]
  decide

/-- The path of a call is its template with the arguments encoded. -/
theorem join_template (call : UcCall) :
    Router.join ((template call).map
      (pathSegment (boundArguments lib receiver ctx (arguments call)))) = path call := by
  cases call with
  | getUser userId => exact join_user userId
  | getUserByUsername username => exact join_byUsername
  | listUsers => exact join_users
  | createUser payload => exact join_users
  | updateUser userId payload => exact join_user userId
  | deleteUser userId => exact join_user userId

/-- **The decorated methods send what the client's model sends.** -/
theorem wrapper_method (h : ModelClasses classes) (call : UcCall) :
    ∃ out, wrapper python (method call) (spec call)
        (methodCall lib receiver ctx (arguments call)) = .ok out ∧
      SameRequest lib (outboundCall call) out ∧ out.ctx = ctx := by
  have hsent := wrapper_eq_ok (plainSegments_template python call) (buildSpec_method h call)
    (binds_methodCall lib receiver ctx call) (nodup_template call)
    (pathArgumentsValid lib receiver ctx call) (bodyArgument_boundArguments lib receiver ctx call)
  rw [join_template] at hsent
  refine ⟨_, hsent, ?_, ?_⟩
  · cases call with
    | getUser userId => exact ⟨rfl, rfl, rfl, rfl, rfl, rfl⟩
    | getUserByUsername username => exact ⟨rfl, rfl, rfl, rfl, rfl, rfl⟩
    | listUsers => exact ⟨rfl, rfl, rfl, rfl, rfl, rfl⟩
    | createUser payload => exact ⟨rfl, rfl, rfl, rfl, rfl, rfl⟩
    | updateUser userId payload => exact ⟨rfl, rfl, rfl, rfl, rfl, rfl⟩
    | deleteUser userId => exact ⟨rfl, rfl, rfl, rfl, rfl, rfl⟩
  · cases call <;> rfl

end Novon.UcServiceClient
