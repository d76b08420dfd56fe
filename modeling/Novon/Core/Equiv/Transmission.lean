import Novon.Core.Equiv.Decorators
import Novon.Core.Equiv.ModelUtils

/-!
# Where each argument goes

Decoration sorts the parameters into path, body and query (`perm_wireParams`), and a call sends
each argument in the place of its parameter and nowhere else.  A body argument that is `None` is
sent as no body (`not_body_iff_bodyParam`).  Besides the wrapper's own `TypeError`s, a call may
raise what `str`, `quote` or `model_dump` raise on an argument (`Refused`).
-/

namespace Novon.Decorators

open Format (Field Token tokens topFields)

/-- The fields of a template are its placeholders, plain and distinct. -/
structure SimpleTemplate (python : Python) (template : String) : Prop where
  wellFormed : .malformed ∉ tokens template.toList
  plain : ∀ f ∈ topFields template.toList, f.IsPlain
  names : (topFields template.toList).map (Field.key? python.toLib) =
    (placeholders python template.toList).map some
  nodup : (placeholders python template.toList).Nodup

/-- The encoding of the argument that a field names. -/
def encodedText (arguments : Dict String Value) (f : Field) : String :=
  ((pathText arguments (String.ofList f.name)).map Percent.quote).getD ""

variable {python : Python} {classes : Classes} {method path : String} {func : Func}
  {spec : EndpointSpec} {arguments : Dict String Value}

/-! ### The partition -/

/-- A simple template is formatted with the encoded arguments. -/
theorem formatMap_of_simple {template : String} (h : SimpleTemplate python template)
    (hpresent : ∀ name ∈ placeholders python template.toList,
      (pathText arguments name).isSome) :
    Format.formatMap python.toLib (pathVars arguments (placeholders python template.toList))
        template =
      .ok (String.join
        ((tokens template.toList).map (Format.tokenText (encodedText arguments)))) := by
  rw [Format.formatMap, Format.build]
  apply Format.formatTokens_eq_ok
  intro token hmem
  cases token with
  | lit c => rfl
  | malformed => exact absurd hmem h.wellFormed
  | field f =>
    have hf : f ∈ topFields template.toList := Format.mem_topFields.mpr hmem
    have hplain := h.plain f hf
    have hkeys : f.key? python.toLib ∈ (placeholders python template.toList).map some := by
      rw [← h.names]
      exact List.mem_map_of_mem hf
    obtain ⟨name, hname, hkey⟩ := List.mem_map.mp hkeys
    obtain ⟨text, htext⟩ := Option.isSome_iff_exists.mp (hpresent name hname)
    have hvalue : (pathVars arguments (placeholders python template.toList)).get? name =
        some (Percent.quote text) := by
      rw [get?_pathVars h.nodup hpresent, if_pos hname, htext]
      rfl
    rw [Format.formatToken_of_isPlain python.toLib _ hplain hkey.symm hvalue, Format.tokenText,
      encodedText, ← Field.key?_of_isPlain python.toLib hplain hkey.symm, htext]
    rfl

/-! ### What the path loop raises -/

/-- `Item(name="x")`. -/
def item : Value := .model (.ok "name='x'") (.ofList [("name", .value (.str "x"))]) fun _ => none

end Novon.Decorators
