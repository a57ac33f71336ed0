import AdvancedSearch.Lib.Text
import AdvancedSearch.Lib.JsonParse

/-!
# Percent encoding

`encodeURIComponent` writes a character as it is or as the octets of its UTF-8 form, each behind a percent
sign. `decodeURIComponent` reads every text back in which the characters are written in one of these ways
(`decodeURIComponent_of_spelled`).
-/

namespace Js

/-! ## UTF-8 -/

/-- The octets of a character. -/
def utf8 (c : Char) : List ℕ :=
  let n := c.toNat
  if n < 0x80 then [n]
  else if n < 0x800 then [0xC0 + n / 64, 0x80 + n % 64]
  else if n < 0x10000 then [0xE0 + n / 4096, 0x80 + n / 64 % 64, 0x80 + n % 64]
  else [0xF0 + n / 262144, 0x80 + n / 4096 % 64, 0x80 + n / 64 % 64, 0x80 + n % 64]

/-- How many octets a character has whose first octet is `a`. -/
def octetCount (a : ℕ) : ℕ := if a < 0xC0 then 1 else if a < 0xE0 then 2 else if a < 0xF0 then 3 else 4

/-- A code point that needs its octets and is no surrogate. -/
def scalar (least n : ℕ) : Option Char := if least ≤ n ∧ n.isValidChar then some (Char.ofNat n) else none

def isContinuation (b : ℕ) : Bool := 0x80 ≤ b && b < 0xC0

/-- The character with these octets. -/
def ofOctets : List ℕ → Option Char
  | [a] => if a < 0x80 then some (Char.ofNat a) else none
  | [a, b] => if isContinuation b then scalar 0x80 ((a - 0xC0) * 64 + (b - 0x80)) else none
  | [a, b, c] =>
    if isContinuation b && isContinuation c then
      scalar 0x800 ((a - 0xE0) * 4096 + (b - 0x80) * 64 + (c - 0x80))
    else none
  | [a, b, c, d] =>
    if a < 0xF8 && isContinuation b && isContinuation c && isContinuation d then
      scalar 0x10000 ((a - 0xF0) * 262144 + (b - 0x80) * 4096 + (c - 0x80) * 64 + (d - 0x80))
    else none
  | _ => none

/-! ## Encoding -/

/-- What `encodeURIComponent` keeps. -/
def isUnreserved (c : Char) : Bool := c.isAlphanum || c ∈ "-_.!~*'()".toList

def upperHex (n : ℕ) : Char := (Nat.digitChar n).toUpper

def escapeOctet (b : ℕ) : List Char := ['%', upperHex (b / 16), upperHex (b % 16)]

def encodeChar (c : Char) : List Char := if isUnreserved c then [c] else (utf8 c).flatMap escapeOctet

/-- `encodeURIComponent`, of well-formed Unicode. -/
def encodeURIComponent (s : String) : String := String.ofList (s.toList.flatMap encodeChar)

/-! ## Decoding -/

/-- The octet of two hexadecimal digits. -/
def readOctet (h l : Char) : Option ℕ :=
  match hexValue h, hexValue l with
  | some h, some l => some (h * 16 + l)
  | _, _ => none

/-- The characters of a text, after the octets of one that is not complete yet. -/
def decodeFrom (octets : List ℕ) : List Char → Option (List Char)
  | [] => if octets = [] then some [] else none
  | '%' :: h :: l :: cs =>
    match readOctet h l with
    | none => none
    | some b =>
      if (octets ++ [b]).length < octetCount (octets.headD b) then decodeFrom (octets ++ [b]) cs
      else
        match ofOctets (octets ++ [b]) with
        | some c => (decodeFrom [] cs).map (c :: ·)
        | none => none
  | c :: cs => if c = '%' ∨ octets ≠ [] then none else (decodeFrom [] cs).map (c :: ·)

/-- `decodeURIComponent`, where it does not throw. -/
def decodeURIComponent (s : String) : Option String := (decodeFrom [] s.toList).map String.ofList

/-- Every character is written as it is, unless it is a percent sign, or escaped. -/
inductive PercentSpelled : List Char → List Char → Prop
  | nil : PercentSpelled [] []
  | kept {c : Char} {cs text : List Char} : c ≠ '%' → PercentSpelled cs text →
    PercentSpelled (c :: cs) (c :: text)
  | escaped (c : Char) {cs text : List Char} : PercentSpelled cs text →
    PercentSpelled (c :: cs) ((utf8 c).flatMap escapeOctet ++ text)

/-! ## One character -/

theorem hexValue_upperHex : ∀ n < 16, hexValue (upperHex n) = some n := by decide

theorem readOctet_escape {b : ℕ} (hb : b < 256) :
    readOctet (upperHex (b / 16)) (upperHex (b % 16)) = some b := by
  have hoctet : b / 16 * 16 + b % 16 = b := by omega
  unfold readOctet
  rw [hexValue_upperHex _ (by omega), hexValue_upperHex _ (by omega)]
  dsimp only
  rw [hoctet]

/-- One escaped octet. -/
theorem decodeFrom_escape {b : ℕ} (hb : b < 256) (octets : List ℕ) (cs : List Char) :
    decodeFrom octets (escapeOctet b ++ cs) =
      if (octets ++ [b]).length < octetCount (octets.headD b) then decodeFrom (octets ++ [b]) cs
      else
        match ofOctets (octets ++ [b]) with
        | some c => (decodeFrom [] cs).map (c :: ·)
        | none => none := by
  show decodeFrom octets ('%' :: upperHex (b / 16) :: upperHex (b % 16) :: cs) = _
  rw [decodeFrom, readOctet_escape hb]

/-- The octets of a character that are left, after those of it that are read. -/
theorem decodeFrom_octets {c : Char} {left : List ℕ} (hleft : left ≠ []) (octets : List ℕ)
    (hbyte : ∀ b ∈ left, b < 256) (hcount : (octets ++ left).length = octetCount ((octets ++ left).headD 0))
    (hchar : ofOctets (octets ++ left) = some c) (cs : List Char) :
    decodeFrom octets (left.flatMap escapeOctet ++ cs) = (decodeFrom [] cs).map (c :: ·) := by
  induction left generalizing octets with
  | nil => exact absurd rfl hleft
  | cons b left ih =>
    have hhead : octets.headD b = (octets ++ b :: left).headD 0 := by
      cases octets <;> rfl
    rw [List.flatMap_cons, List.append_assoc, decodeFrom_escape (hbyte b List.mem_cons_self), hhead,
      ← hcount]
    cases left with
    | nil =>
      rw [if_neg (lt_irrefl _), hchar]
      rfl
    | cons b' left =>
      have happend : octets ++ b :: b' :: left = (octets ++ [b]) ++ b' :: left := by simp
      rw [if_pos (by simp)]
      exact ih (List.cons_ne_nil _ _) (octets ++ [b])
        (fun b'' hb'' => hbyte b'' (List.mem_cons_of_mem _ hb'')) (happend ▸ hcount) (happend ▸ hchar)

theorem scalar_toNat {c : Char} {least : ℕ} (h : least ≤ c.toNat) : scalar least c.toNat = some c := by
  have hvalid : c.toNat.isValidChar := c.valid
  unfold scalar
  rw [if_pos ⟨h, hvalid⟩, Char.ofNat_toNat]

theorem isContinuation_octet {m : ℕ} (h : m < 64) : isContinuation (0x80 + m) = true := by
  unfold isContinuation
  rw [decide_eq_true (by omega), decide_eq_true (by omega)]
  rfl

/-- The octets of a character are octets, as many as the first one says, and give it back. -/
theorem utf8_spec (c : Char) : (∀ b ∈ utf8 c, b < 256) ∧
    (utf8 c).length = octetCount ((utf8 c).headD 0) ∧ ofOctets (utf8 c) = some c := by
  have hvalid : c.toNat < 0xD800 ∨ 0xDFFF < c.toNat ∧ c.toNat < 0x110000 := c.valid
  generalize hn : c.toNat = n at hvalid
  have hchar : ∀ least ≤ n, scalar least n = some c := fun least hleast => by
    rw [← hn] at hleast ⊢
    exact scalar_toNat hleast
  unfold utf8
  rw [hn]
  dsimp only
  split_ifs with h1 h2 h3
  · refine ⟨by simp; omega, ?_, ?_⟩
    · show 1 = octetCount n
      unfold octetCount
      rw [if_pos (by omega)]
    · show (if n < 0x80 then some (Char.ofNat n) else none) = some c
      rw [if_pos h1, ← hn, Char.ofNat_toNat]
  · have hcode : (0xC0 + n / 64 - 0xC0) * 64 + (0x80 + n % 64 - 0x80) = n := by omega
    have hcont : isContinuation (0x80 + n % 64) = true := isContinuation_octet (by omega)
    refine ⟨by simp; omega, ?_, ?_⟩
    · show 2 = octetCount (0xC0 + n / 64)
      unfold octetCount
      rw [if_neg (by omega), if_pos (by omega)]
    · rw [ofOctets, if_pos hcont, hcode]
      exact hchar 0x80 (by omega)
  · have hcode : (0xE0 + n / 4096 - 0xE0) * 4096 + (0x80 + n / 64 % 64 - 0x80) * 64 +
        (0x80 + n % 64 - 0x80) = n := by omega
    have hcont1 : isContinuation (0x80 + n / 64 % 64) = true := isContinuation_octet (by omega)
    have hcont2 : isContinuation (0x80 + n % 64) = true := isContinuation_octet (by omega)
    refine ⟨by simp; omega, ?_, ?_⟩
    · show 3 = octetCount (0xE0 + n / 4096)
      unfold octetCount
      rw [if_neg (by omega), if_neg (by omega), if_pos (by omega)]
    · rw [ofOctets, hcont1, hcont2, Bool.and_self, if_pos rfl, hcode]
      exact hchar 0x800 (by omega)
  · have hcode : (0xF0 + n / 262144 - 0xF0) * 262144 + (0x80 + n / 4096 % 64 - 0x80) * 4096 +
        (0x80 + n / 64 % 64 - 0x80) * 64 + (0x80 + n % 64 - 0x80) = n := by omega
    have hcont1 : isContinuation (0x80 + n / 4096 % 64) = true := isContinuation_octet (by omega)
    have hcont2 : isContinuation (0x80 + n / 64 % 64) = true := isContinuation_octet (by omega)
    have hcont3 : isContinuation (0x80 + n % 64) = true := isContinuation_octet (by omega)
    have hfirst : decide (0xF0 + n / 262144 < 0xF8) = true := decide_eq_true (by omega)
    refine ⟨by simp; omega, ?_, ?_⟩
    · show 4 = octetCount (0xF0 + n / 262144)
      unfold octetCount
      rw [if_neg (by omega), if_neg (by omega), if_neg (by omega)]
    · rw [ofOctets, hfirst, hcont1, hcont2, hcont3, Bool.and_self, Bool.and_self, Bool.and_self, if_pos rfl,
        hcode]
      exact hchar 0x10000 (by omega)

theorem utf8_ne_nil (c : Char) : utf8 c ≠ [] := by
  unfold utf8
  dsimp only
  split_ifs <;> exact List.cons_ne_nil _ _

/-- An escaped character is read back. -/
theorem decodeFrom_utf8 (c : Char) (cs : List Char) :
    decodeFrom [] ((utf8 c).flatMap escapeOctet ++ cs) = (decodeFrom [] cs).map (c :: ·) := by
  obtain ⟨hbyte, hcount, hchar⟩ := utf8_spec c
  exact decodeFrom_octets (utf8_ne_nil c) [] hbyte hcount hchar cs

/-- So is a character that is kept. -/
theorem decodeFrom_kept {c : Char} (hc : c ≠ '%') (cs : List Char) :
    decodeFrom [] (c :: cs) = (decodeFrom [] cs).map (c :: ·) := by
  rw [decodeFrom]
  · rw [if_neg (by simp [hc])]
  · exact fun _ _ _ hpercent _ => hc hpercent

/-! ## Texts -/

theorem decodeFrom_of_spelled {cs text : List Char} (h : PercentSpelled cs text) :
    decodeFrom [] text = some cs := by
  induction h with
  | nil => rfl
  | kept hc _ ih =>
    rw [decodeFrom_kept hc, ih]
    rfl
  | escaped c _ ih =>
    rw [decodeFrom_utf8, ih]
    rfl

/-- Decoding undoes the encoding, whichever characters were escaped. -/
theorem decodeURIComponent_of_spelled {s text : String} (h : PercentSpelled s.toList text.toList) :
    decodeURIComponent text = some s := by
  unfold decodeURIComponent
  rw [decodeFrom_of_spelled h, Option.map_some, String.ofList_toList]

theorem ne_percent_of_isUnreserved {c : Char} (h : isUnreserved c = true) : c ≠ '%' := by
  rintro rfl
  exact absurd h (by decide)

/-- A character as `encodeURIComponent` writes it, before a spelled text. -/
theorem PercentSpelled.encoded (c : Char) {cs text : List Char} (h : PercentSpelled cs text) :
    PercentSpelled (c :: cs) (encodeChar c ++ text) := by
  unfold encodeChar
  split_ifs with hkept
  · exact .kept (ne_percent_of_isUnreserved hkept) h
  · exact .escaped c h

theorem percentSpelled_encodeURIComponent (s : String) :
    PercentSpelled s.toList (encodeURIComponent s).toList := by
  unfold encodeURIComponent
  rw [String.toList_ofList]
  induction s.toList with
  | nil => exact .nil
  | cons c cs ih => exact ih.encoded c

/-! ## The characters of an encoding -/

theorem isUnreserved_upperHex : ∀ n < 16, isUnreserved (upperHex n) = true := by decide

/-- An encoding has unreserved characters and percent signs. -/
theorem isUnreserved_of_mem_encodeChar {c d : Char} (h : d ∈ encodeChar c) :
    isUnreserved d = true ∨ d = '%' := by
  unfold encodeChar at h
  split_ifs at h with hkept
  · rw [List.mem_singleton.mp h]
    exact .inl hkept
  · obtain ⟨b, hb, hd⟩ := List.mem_flatMap.mp h
    have hoctet := (utf8_spec c).1 b hb
    unfold escapeOctet at hd
    rcases List.mem_cons.mp hd with rfl | hd
    · exact .inr rfl
    rcases List.mem_cons.mp hd with rfl | hd
    · exact .inl (isUnreserved_upperHex _ (by omega))
    · rw [List.mem_singleton.mp hd]
      exact .inl (isUnreserved_upperHex _ (by omega))

theorem mem_encodeURIComponent {s : String} {d : Char} (h : d ∈ (encodeURIComponent s).toList) :
    isUnreserved d = true ∨ d = '%' := by
  unfold encodeURIComponent at h
  rw [String.toList_ofList] at h
  obtain ⟨c, -, hd⟩ := List.mem_flatMap.mp h
  exact isUnreserved_of_mem_encodeChar hd

theorem toNat_of_isUnreserved {c : Char} (h : isUnreserved c = true) : 32 < c.toNat ∧ c.toNat < 128 := by
  rcases (Bool.or_eq_true _ _).mp h with halnum | hmark
  · unfold Char.isAlphanum Char.isAlpha Char.isUpper Char.isLower Char.isDigit at halnum
    simp only [Bool.or_eq_true, Bool.and_eq_true, decide_eq_true_eq, ge_iff_le,
      UInt32.le_iff_toNat_le, Char.reduceVal, UInt32.reduceToNat] at halnum
    show 32 < c.val.toNat ∧ c.val.toNat < 128
    omega
  · have hmarks : ("-_.!~*'()".toList.all fun d => 32 < d.toNat ∧ d.toNat < 128) = true := by decide
    exact of_decide_eq_true (List.all_eq_true.mp hmarks c (of_decide_eq_true hmark))

theorem toNat_of_isTrimmed {c : Char} (h : isTrimmed c = true) : c.toNat ≤ 32 ∨ 128 ≤ c.toNat := by
  have hval : c.val.toNat = c.toNat := rfl
  unfold isTrimmed at h
  simp only [Bool.or_eq_true, Bool.and_eq_true, decide_eq_true_eq, ← Char.toNat_inj, Char.reduceToNat,
    Char.le_def, UInt32.le_iff_toNat_le, Char.reduceVal, UInt32.reduceToNat] at h
  omega

/-- No blank is one of them. -/
theorem isTrimmed_of_isUnreserved {c : Char} (h : isUnreserved c = true) : isTrimmed c = false := by
  have hrange := toNat_of_isUnreserved h
  by_contra hblank
  have := toNat_of_isTrimmed (eq_true_of_ne_false hblank)
  omega

end Js
