import AdvancedSearch.Lib.PercentEncoding

/-!
# OTLP headers

`otlpHeaders` of the configuration, read from `OTEL_EXPORTER_OTLP_HEADERS`. A text that spells a list of
headers the OpenTelemetry way is read back as exactly these headers (`parseOtlpHeaders_encoded`).
-/

namespace AdvancedSearch

open Js

/-! ## Parsing -/

/-- A malformed escape is kept as it is. -/
def percentDecode (value : String) : String := (decodeURIComponent value).getD value

/-- `headers[key] = value`. Assigning a string to `__proto__` does nothing. -/
def setHeader (headers : Fields) (key value : String) : Fields :=
  if key = "__proto__" then headers else putField headers key (.string value)

/-- One `key=value` pair: only the first `=` separates. -/
def readPair (headers : Fields) (pair : String) : Fields :=
  match pair.toList.idxOf? '=' with
  | none => headers
  | some 0 => headers
  | some separator =>
    let key := percentDecode (trim (String.ofList (pair.toList.take separator)))
    let value := percentDecode (trim (String.ofList (pair.toList.drop (separator + 1))))
    if key ≠ "" ∧ value ≠ "" then setHeader headers key value else headers

/-- Parses the OTLP `key=value,key=value` header convention. -/
def parseOtlpHeaders : Option String → Fields
  | none => []
  | some raw => if raw = "" then [] else (split raw ',').foldl readPair []

/-! ## Encoding -/

/-- A value is percent-encoded, an `=` of it maybe not. -/
inductive ValueSpelled : List Char → List Char → Prop
  | nil : ValueSpelled [] []
  | encoded (c : Char) {cs text : List Char} : ValueSpelled cs text →
    ValueSpelled (c :: cs) (encodeChar c ++ text)
  | equals {cs text : List Char} : ValueSpelled cs text → ValueSpelled ('=' :: cs) ('=' :: text)

/-- A header with blanks around its name and around its value. -/
inductive PairSpelled (name value : String) : String → Prop
  | intro {b₁ b₂ b₃ b₄ text : String} :
    b₁.toList.all isTrimmed = true → b₂.toList.all isTrimmed = true →
    b₃.toList.all isTrimmed = true → b₄.toList.all isTrimmed = true →
    ValueSpelled value.toList text.toList →
    PairSpelled name value ((b₁ ++ encodeURIComponent name ++ b₂) ++ "=" ++ (b₃ ++ text ++ b₄))

/-- Segments that spell these headers in their order, among others that are blank or have no `=`. -/
inductive Spells : List (String × String) → List String → Prop
  | nil : Spells [] []
  | pair {name value segment : String} {pairs : List (String × String)} {segments : List String} :
    PairSpelled name value segment → Spells pairs segments →
    Spells ((name, value) :: pairs) (segment :: segments)
  | skipped {segment : String} {pairs : List (String × String)} {segments : List String} :
    ',' ∉ segment.toList → segment.toList.all isTrimmed = true ∨ '=' ∉ segment.toList →
    Spells pairs segments → Spells pairs (segment :: segments)

/-! ## The characters of a segment -/

theorem mem_valueSpelled {cs text : List Char} (h : ValueSpelled cs text) {c : Char} (hc : c ∈ text) :
    isUnreserved c = true ∨ c = '%' ∨ c = '=' := by
  induction h with
  | nil => cases hc
  | encoded d _ ih =>
    rcases List.mem_append.mp hc with hc | hc
    · exact (isUnreserved_of_mem_encodeChar hc).imp_right .inl
    · exact ih hc
  | equals _ ih =>
    rcases List.mem_cons.mp hc with rfl | hc
    · exact .inr (.inr rfl)
    · exact ih hc

theorem percentSpelled_of_valueSpelled {cs text : List Char} (h : ValueSpelled cs text) :
    PercentSpelled cs text := by
  induction h with
  | nil => exact .nil
  | encoded c _ ih => exact ih.encoded c
  | equals _ ih => exact .kept (by decide) ih

/-- What is written of a name or a value is not trimmed. -/
theorem isTrimmed_of_spelling {c : Char} (h : isUnreserved c = true ∨ c = '%' ∨ c = '=') :
    isTrimmed c = false := by
  rcases h with h | rfl | rfl
  · exact isTrimmed_of_isUnreserved h
  · decide
  · decide

theorem notMem_of_isTrimmed {s : String} {c : Char} (hs : s.toList.all isTrimmed = true)
    (hc : isTrimmed c = false) : c ∉ s.toList := fun hmem =>
  ne_true_of_eq_false hc (List.all_eq_true.mp hs c hmem)

theorem notMem_append {s t : String} {c : Char} (hs : c ∉ s.toList) (ht : c ∉ t.toList) :
    c ∉ (s ++ t).toList := by
  rw [String.toList_append]
  exact List.not_mem_append hs ht

/-- Between the blanks of a name no separator is written. -/
theorem notMem_encodedName (name : String) {b₁ b₂ : String} (h₁ : b₁.toList.all isTrimmed = true)
    (h₂ : b₂.toList.all isTrimmed = true) {c : Char} (hc : c = ',' ∨ c = '=') :
    c ∉ (b₁ ++ encodeURIComponent name ++ b₂).toList := by
  have hblank : isTrimmed c = false := by rcases hc with rfl | rfl <;> decide
  have hname : c ∉ (encodeURIComponent name).toList := by
    intro hmem
    rcases mem_encodeURIComponent hmem with h | h
    · rcases hc with rfl | rfl <;> exact absurd h (by decide)
    · rcases hc with rfl | rfl <;> exact absurd h (by decide)
  exact notMem_append (notMem_append (notMem_of_isTrimmed h₁ hblank) hname) (notMem_of_isTrimmed h₂ hblank)

theorem comma_notMem_pair {name value segment : String} (h : PairSpelled name value segment) :
    ',' ∉ segment.toList := by
  cases h with
  | @intro b₁ b₂ b₃ b₄ text h₁ h₂ h₃ h₄ hvalue =>
    have htext : ',' ∉ text.toList := by
      intro hmem
      rcases mem_valueSpelled hvalue hmem with h | h | h <;> exact absurd h (by decide)
    have hname : ',' ∉ (b₁ ++ encodeURIComponent name ++ b₂).toList :=
      notMem_encodedName name h₁ h₂ (.inl rfl)
    have hb₃ : ',' ∉ b₃.toList := notMem_of_isTrimmed h₃ (by decide)
    have hb₄ : ',' ∉ b₄.toList := notMem_of_isTrimmed h₄ (by decide)
    exact notMem_append (notMem_append hname (by decide)) (notMem_append (notMem_append hb₃ htext) hb₄)

theorem comma_notMem {pairs : List (String × String)} {segments : List String} (h : Spells pairs segments) :
    ∀ segment ∈ segments, ',' ∉ segment.toList := by
  induction h with
  | nil => exact fun _ hmem => absurd hmem List.not_mem_nil
  | pair hpair _ ih => exact List.forall_mem_cons.mpr ⟨comma_notMem_pair hpair, ih⟩
  | skipped hcomma _ _ ih => exact List.forall_mem_cons.mpr ⟨hcomma, ih⟩

/-! ## One segment -/

theorem percentDecode_of_spelled {s text : String} (h : PercentSpelled s.toList text.toList) :
    percentDecode text = s := by
  unfold percentDecode
  rw [decodeURIComponent_of_spelled h, Option.getD_some]

theorem idxOf?_first {before after : List Char} {c : Char} (h : c ∉ before) :
    (before ++ c :: after).idxOf? c = some before.length := by
  induction before with
  | nil => rw [List.nil_append, List.idxOf?_cons, beq_self_eq_true, if_pos rfl]; rfl
  | cons d before ih =>
    have hne : (d == c) = false := beq_eq_false_iff_ne.mpr fun hd => h (hd ▸ List.mem_cons_self)
    rw [List.cons_append, List.idxOf?_cons, hne, if_neg Bool.false_ne_true,
      ih fun hmem => h (List.mem_cons_of_mem _ hmem)]
    rfl

/-- A pair is read in two at its first `=`. -/
theorem readPair_of_first {pair before after : String} (hpair : pair = before ++ "=" ++ after)
    (hsign : '=' ∉ before.toList) (hne : before ≠ "") (headers : Fields) :
    readPair headers pair =
      if percentDecode (trim before) ≠ "" ∧ percentDecode (trim after) ≠ "" then
        setHeader headers (percentDecode (trim before)) (percentDecode (trim after))
      else headers := by
  have hchars : pair.toList = before.toList ++ '=' :: after.toList := by
    rw [hpair, String.toList_append, String.toList_append, List.append_assoc]
    rfl
  obtain ⟨n, hn⟩ : ∃ n, before.toList.length = n + 1 := by
    refine Nat.exists_eq_succ_of_ne_zero fun hzero => hne ?_
    exact String.toList_eq_nil_iff.mp (List.length_eq_zero_iff.mp hzero)
  have htake : String.ofList (pair.toList.take (n + 1)) = before := by
    rw [hchars, ← hn, List.take_left, String.ofList_toList]
  have hdrop : String.ofList (pair.toList.drop (n + 1 + 1)) = after := by
    rw [hchars, ← hn, ← List.drop_drop, List.drop_left, List.drop_one, List.tail_cons,
      String.ofList_toList]
  have hindex : pair.toList.idxOf? '=' = some (n + 1) := by
    rw [hchars, idxOf?_first hsign, hn]
  conv_rhs => rw [← htake, ← hdrop]
  unfold readPair
  rw [hindex]
  rfl

/-- A spelled header is set. -/
theorem readPair_of_spelled {name value segment : String} (h : PairSpelled name value segment)
    (hname : name ≠ "") (hvalue : value ≠ "") (headers : Fields) :
    readPair headers segment = setHeader headers name value := by
  cases h with
  | @intro b₁ b₂ b₃ b₄ text h₁ h₂ h₃ h₄ htext =>
    have hkey : percentDecode (trim (b₁ ++ encodeURIComponent name ++ b₂)) = name := by
      have hchars : ∀ c ∈ (encodeURIComponent name).toList, isTrimmed c = false := fun c hc =>
        isTrimmed_of_spelling ((mem_encodeURIComponent hc).imp_right .inl)
      rw [trim_surrounded h₁ hchars h₂]
      exact percentDecode_of_spelled (percentSpelled_encodeURIComponent name)
    have hval : percentDecode (trim (b₃ ++ text ++ b₄)) = value := by
      have hchars : ∀ c ∈ text.toList, isTrimmed c = false := fun c hc =>
        isTrimmed_of_spelling (mem_valueSpelled htext hc)
      rw [trim_surrounded h₃ hchars h₄]
      exact percentDecode_of_spelled (percentSpelled_of_valueSpelled htext)
    have hne : b₁ ++ encodeURIComponent name ++ b₂ ≠ "" := by
      intro hempty
      rw [hempty] at hkey
      exact hname hkey.symm
    rw [readPair_of_first rfl (notMem_encodedName name h₁ h₂ (.inr rfl)) hne, hkey, hval,
      if_pos ⟨hname, hvalue⟩]

/-- A segment without `=` is passed over. -/
theorem readPair_of_notMem {segment : String} (h : '=' ∉ segment.toList) (headers : Fields) :
    readPair headers segment = headers := by
  unfold readPair
  rw [List.idxOf?_eq_none_iff.mpr h]

/-! ## All segments -/

/-- What the segments spell is set, over what was there. -/
theorem field_readPairs {pairs : List (String × String)} {segments : List String}
    (h : Spells pairs segments) (hnodup : (pairs.map Prod.fst).Nodup)
    (hpairs : ∀ p ∈ pairs, p.1 ≠ "" ∧ p.1 ≠ "__proto__" ∧ p.2 ≠ "") (headers : Fields) (name : String) :
    field (segments.foldl readPair headers) name =
      ((pairs.lookup name).map .string).or (field headers name) := by
  induction h generalizing headers with
  | nil => rfl
  | @pair key value segment pairs segments hpair _ ih =>
    obtain ⟨hkey, hproto, hvalue⟩ := hpairs _ List.mem_cons_self
    have hrest := List.forall_mem_of_forall_mem_cons hpairs
    obtain ⟨hnew, hnodup⟩ := List.nodup_cons.mp hnodup
    have hset : setHeader headers key value = putField headers key (.string value) := by
      unfold setHeader
      rw [if_neg hproto]
    rw [List.foldl_cons, readPair_of_spelled hpair hkey hvalue, ih hnodup hrest, hset, List.lookup_cons]
    by_cases hname : name = key
    · subst hname
      have hnone : pairs.lookup name = none := by
        rw [List.lookup_eq_none_iff]
        intro p hp
        have hmem : p.1 ∈ pairs.map Prod.fst := List.mem_map_of_mem hp
        rw [bne_iff_ne]
        exact fun hsame => hnew (hsame ▸ hmem)
      rw [hnone, field_putField_self, beq_self_eq_true]
      rfl
    · rw [field_putField_of_ne hname, beq_eq_false_iff_ne.mpr hname]
  | skipped _ hskip _ ih =>
    have hsign : '=' ∉ _ := hskip.elim (fun hblank => notMem_of_isTrimmed hblank (by decide)) id
    rw [List.foldl_cons, readPair_of_notMem hsign, ih hnodup hpairs]

/-- The text `OTEL_EXPORTER_OTLP_HEADERS` has for these segments is read segment by segment. -/
theorem parseOtlpHeaders_segments {pairs : List (String × String)} {segments : List String}
    (h : Spells pairs segments) :
    parseOtlpHeaders (some (",".intercalate segments)) = segments.foldl readPair [] := by
  by_cases hnil : segments = []
  · subst hnil
    rfl
  have hsplit : split (",".intercalate segments) ',' = segments := split_intercalate (comma_notMem h) hnil
  show (if ",".intercalate segments = "" then [] else _) = _
  rw [hsplit]
  split_ifs with hempty
  · -- only one segment, an empty one, is joined to nothing
    have hone : segments = [""] := by
      rw [← hsplit, hempty]
      rfl
    rw [hone]
    rfl
  · rfl

/-- **Parsing undoes the encoding.** The map has the value of every header that was spelled, and nothing
else. -/
theorem parseOtlpHeaders_encoded {pairs : List (String × String)} {segments : List String}
    (hspells : Spells pairs segments) (hnodup : (pairs.map Prod.fst).Nodup)
    (hpairs : ∀ p ∈ pairs, p.1 ≠ "" ∧ p.1 ≠ "__proto__" ∧ p.2 ≠ "") (name : String) :
    field (parseOtlpHeaders (some (",".intercalate segments))) name = (pairs.lookup name).map .string := by
  rw [parseOtlpHeaders_segments hspells, field_readPairs hspells hnodup hpairs]
  show Option.or _ none = _
  rw [Option.or_none]

/-- The credentials of a collector, its padding as it is, and a header with a comma. -/
theorem parseOtlpHeaders_encoded_credentials :
    field (parseOtlpHeaders (some " Authorization = Basic%20MTI6YQ==,,tenant,X-Scope=a%2Cb"))
      "Authorization" = some (.string "Basic MTI6YQ==") := by
  have hbasic : ValueSpelled "Basic MTI6YQ==".toList "Basic%20MTI6YQ==".toList :=
    .encoded 'B' <| .encoded 'a' <| .encoded 's' <| .encoded 'i' <| .encoded 'c' <| .encoded ' ' <|
      .encoded 'M' <| .encoded 'T' <| .encoded 'I' <| .encoded '6' <| .encoded 'Y' <| .encoded 'Q' <|
      .equals <| .equals .nil
  have hscope : ValueSpelled "a,b".toList "a%2Cb".toList :=
    .encoded 'a' <| .encoded ',' <| .encoded 'b' .nil
  have hspells : Spells [("Authorization", "Basic MTI6YQ=="), ("X-Scope", "a,b")]
      [" Authorization = Basic%20MTI6YQ==", "", "tenant", "X-Scope=a%2Cb"] := by
    refine .pair (@PairSpelled.intro _ _ " " " " " " "" _ ?_ ?_ ?_ ?_ hbasic) ?_
    iterate 4 decide
    refine .skipped (by decide) (.inl (by decide)) (.skipped (by decide) (.inr (by decide)) ?_)
    exact .pair (@PairSpelled.intro _ _ "" "" "" "" _ rfl rfl rfl rfl hscope) .nil
  exact parseOtlpHeaders_encoded hspells (by decide) (by decide) "Authorization"

end AdvancedSearch
