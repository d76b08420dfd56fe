import Novon.Core.Signature

/-!
# The shape of a client's methods

Every method of the clients takes its own parameters, by position or by name, and the context by
name.
-/

namespace Novon

/-- The parameters of a method that a client declares. -/
def clientParameters (params : List (String × String)) : List Parameter :=
  ⟨"self", .positionalOrKeyword, none⟩ ::
    (params.map fun p => ⟨p.1, .positionalOrKeyword, none⟩) ++ [⟨"ctx", .keywordOnly, some .none⟩]

theorem nodup_clientParameters_nil : ((clientParameters []).map Parameter.name).Nodup := by
  decide

/-- The annotations of such a method. -/
def clientHints (params : List (String × String)) (returns : TypeHint) : Dict String TypeHint :=
  .ofList ((params.map fun p => (p.1, .cls p.2)) ++
    [("ctx", .union [.cls "RequestContext", .noneType]), ("return", returns)])

/-- `async def name(self, p: C, ..., *, ctx: RequestContext | None = None) -> returns`. -/
def clientMethod (qualname : String) (params : List (String × String)) (returns : TypeHint)
    (h : ((clientParameters params).map Parameter.name).Nodup) : Func where
  qualname
  parameters := clientParameters params
  nodup_names := h
  hints := .ok (clientHints params returns)

end Novon
