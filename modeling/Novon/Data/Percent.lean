import Mathlib.Data.List.Basic
import Mathlib.Tactic.IntervalCases
import Novon.Data.Ascii

/-!
# Percent-encoding

`quote` encodes a string as UTF-8 and writes every byte outside `A-Z a-z 0-9 _ . - ~` as `%XX`;
`unquote` undoes it.  The round trip (`unquote_quote`) goes byte by byte: decoding an encoded byte
gives the byte back whatever follows it (`unquoteBytes_encodeByte`).
-/

namespace Novon.Percent

/-- A byte that needs no encoding is the character of that code. -/
def isUnreserved (c : Char) : Bool := c.isAlphanum || c ∈ ['_', '.', '-', '~']

def hexDigit (n : ℕ) : Char := Char.ofNat (if n < 10 then 48 + n else 55 + n)

def encodeByte (b : UInt8) : List Char :=
  if isUnreserved (Char.ofNat b.toNat) then [Char.ofNat b.toNat]
  else ['%', hexDigit (b.toNat / 16), hexDigit (b.toNat % 16)]

/-- `quote(s, safe="")`. -/
def quote (s : String) : String :=
  String.ofList ((s.toList.flatMap String.utf8EncodeChar).flatMap encodeByte)

/-- The value of a hexadecimal digit of either case. -/
def hexValue (c : Char) : Option ℕ :=
  if '0' ≤ c ∧ c ≤ '9' then some (c.toNat - 48)
  else if 'A' ≤ c ∧ c ≤ 'F' then some (c.toNat - 55)
  else if 'a' ≤ c ∧ c ≤ 'f' then some (c.toNat - 87)
  else none

/-- The bytes that a percent-encoded text stands for.  A `%` that two hexadecimal digits do not
follow stands for itself. -/
def unquoteBytes : List Char → List UInt8
  | [] => []
  | '%' :: a :: b :: rest =>
    match hexValue a, hexValue b with
    | some hi, some lo => UInt8.ofNat (16 * hi + lo) :: unquoteBytes rest
    | _, _ => String.utf8EncodeChar '%' ++ unquoteBytes (a :: b :: rest)
  | c :: rest => String.utf8EncodeChar c ++ unquoteBytes rest

/-- `unquote(s)`, or `none` if the bytes are not UTF-8. -/
def unquote (s : String) : Option String :=
  (unquoteBytes s.toList).toByteArray.utf8Decode?.map fun cs => String.ofList cs.toList

/-! ### The round trip -/

theorem hexValue_hexDigit {n : ℕ} (h : n < 16) : hexValue (hexDigit n) = some n := by
  interval_cases n <;> rfl

theorem isUnreserved_bounds {c : Char} (h : isUnreserved c = true) :
    c.utf8Size = 1 ∧ c ≠ '%' := by
  have hlt : c.val ≤ 0x7f := by
    simp only [isUnreserved, List.mem_cons, List.not_mem_nil, or_false, Bool.or_eq_true,
      decide_eq_true_eq, isAlphanum_iff] at h
    rcases h with ((⟨h₁, h₂⟩ | ⟨h₁, h₂⟩) | ⟨h₁, h₂⟩) | rfl | rfl | rfl | rfl
    · exact UInt32.le_trans h₂ (by decide)
    · exact UInt32.le_trans h₂ (by decide)
    · exact UInt32.le_trans h₂ (by decide)
    all_goals decide
  refine ⟨if_pos hlt, ?_⟩
  rintro rfl
  exact absurd h (by decide)

theorem toNat_ofNat_byte (b : UInt8) : (Char.ofNat b.toNat).toNat = b.toNat := by
  have hb : b.toNat < 256 := b.toNat_lt
  have hvalid : b.toNat.isValidChar := Or.inl (by omega)
  rw [Char.ofNat, dif_pos hvalid]
  rfl

/-- **Step lemma**: an encoded byte decodes to itself, whatever follows. -/
theorem unquoteBytes_encodeByte (b : UInt8) (rest : List Char) :
    unquoteBytes (encodeByte b ++ rest) = b :: unquoteBytes rest := by
  have hb : b.toNat < 256 := b.toNat_lt
  unfold encodeByte
  split
  · next h =>
    obtain ⟨hsize, hne⟩ := isUnreserved_bounds h
    rw [List.singleton_append, unquoteBytes, String.utf8EncodeChar_eq_singleton hsize]
    · have hbyte : (Char.ofNat b.toNat).toUInt8 = b := by
        rw [← UInt8.toNat_inj, ← Char.toUInt8_val, UInt32.toNat_toUInt8]
        have hc : (Char.ofNat b.toNat).val.toNat = b.toNat := toNat_ofNat_byte b
        omega
      rw [List.singleton_append, Char.toUInt8_val, hbyte]
    · intro a b' rest' h' _
      exact hne h'
  · have hhi := hexValue_hexDigit (show b.toNat / 16 < 16 by omega)
    have hlo := hexValue_hexDigit (show b.toNat % 16 < 16 by omega)
    simp only [List.cons_append, List.nil_append, unquoteBytes, hhi, hlo]
    rw [show 16 * (b.toNat / 16) + b.toNat % 16 = b.toNat by omega, UInt8.ofNat_toNat]

theorem unquoteBytes_flatMap_encodeByte (bs : List UInt8) :
    unquoteBytes (bs.flatMap encodeByte) = bs := by
  induction bs with
  | nil => rfl
  | cons b bs ih => rw [List.flatMap_cons, unquoteBytes_encodeByte, ih]

/-- **Decoding a quoted string gives the string back.** -/
theorem unquote_quote (s : String) : unquote (quote s) = some s := by
  rw [unquote, quote, String.toList_ofList, unquoteBytes_flatMap_encodeByte]
  have h := List.utf8Decode?_utf8Encode (l := s.toList)
  rw [List.utf8Encode] at h
  rw [h]
  simp

theorem quote_injective : Function.Injective quote := by
  intro s t h
  have hs : some s = some t :=
    (unquote_quote s).symm.trans ((congrArg unquote h).trans (unquote_quote t))
  exact Option.some.inj hs

/-- An encoded byte is made of unreserved characters and percent signs. -/
theorem mem_encodeByte {b : UInt8} {c : Char} (h : c ∈ encodeByte b) :
    isUnreserved c = true ∨ c = '%' := by
  have hb : b.toNat < 256 := b.toNat_lt
  have hdigit : ∀ n, n < 16 → isUnreserved (hexDigit n) = true := by decide
  unfold encodeByte at h
  split at h
  · next hreserved =>
    rw [List.mem_singleton] at h
    exact .inl (h ▸ hreserved)
  · simp only [List.mem_cons, List.not_mem_nil, or_false] at h
    rcases h with rfl | rfl | rfl
    · exact .inr rfl
    · exact .inl (hdigit _ (by omega))
    · exact .inl (hdigit _ (by omega))

theorem mem_quote {s : String} {c : Char} (h : c ∈ (quote s).toList) :
    isUnreserved c = true ∨ c = '%' := by
  rw [quote, String.toList_ofList, List.mem_flatMap] at h
  obtain ⟨b, -, hb⟩ := h
  exact mem_encodeByte hb

/-- A reserved character does not occur in quoted text. -/
theorem not_mem_quote {c : Char} (h : isUnreserved c = false) (hc : c ≠ '%') (s : String) :
    c ∉ (quote s).toList := by
  intro hmem
  rcases mem_quote hmem with hunreserved | heq
  · cases h.symm.trans hunreserved
  · exact hc heq

/-- Quoting changes what has reserved characters. -/
theorem quote_ne {c : Char} (h : isUnreserved c = false) (hc : c ≠ '%') {s : String}
    (hmem : c ∈ s.toList) : quote s ≠ s := by
  intro heq
  rw [← heq] at hmem
  exact not_mem_quote h hc s hmem

theorem slash_not_mem_quote (s : String) : '/' ∉ (quote s).toList :=
  not_mem_quote (by decide) (by decide) s

/-- Text without a percent sign stands for its own bytes. -/
theorem unquoteBytes_append {l : List Char} (h : '%' ∉ l) (rest : List Char) :
    unquoteBytes (l ++ rest) = l.flatMap String.utf8EncodeChar ++ unquoteBytes rest := by
  induction l with
  | nil => rfl
  | cons c l ih =>
    rw [List.mem_cons, not_or] at h
    rw [List.cons_append, unquoteBytes, ih h.2, List.flatMap_cons, List.append_assoc]
    intro a b rest hc _
    exact h.1 hc.symm

theorem unquoteBytes_of_not_mem {s : String} (h : '%' ∉ s.toList) :
    unquoteBytes s.toList = s.toList.flatMap String.utf8EncodeChar := by
  have happend := unquoteBytes_append h []
  rwa [List.append_nil, unquoteBytes, List.append_nil] at happend

/-- Percent-encoded text behind text without a percent sign stands for the bytes of both. -/
theorem unquoteBytes_append_quote {p : String} (hp : '%' ∉ p.toList) (s : String) :
    unquoteBytes (p ++ quote s).toList = (p ++ s).toList.flatMap String.utf8EncodeChar := by
  rw [String.toList_append, unquoteBytes_append hp, quote, String.toList_ofList,
    unquoteBytes_flatMap_encodeByte, String.toList_append, List.flatMap_append]

/-- Text without a percent sign in front of a percent-encoded text is decoded as it stands. -/
theorem unquote_append {p : String} (hp : '%' ∉ p.toList) (s : String) :
    unquote (p ++ quote s) = some (p ++ s) := by
  have hdec := List.utf8Decode?_utf8Encode (l := (p ++ s).toList)
  rw [List.utf8Encode] at hdec
  rw [unquote, unquoteBytes_append_quote hp, hdec]
  simp

end Novon.Percent
