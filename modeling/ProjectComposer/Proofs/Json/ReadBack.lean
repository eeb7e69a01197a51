import ProjectComposer.Proofs.Json.Escapes
import ProjectComposer.Proofs.Number.Digits
import ProjectComposer.Proofs.Table

/-!
Indented JSON, read back. Main statement: the reader finds in the text of a value the value itself,
as long as it is exact: members of an object have distinct keys, as every table has, and numbers are
integers.
-/
namespace ProjectComposer.Json
set_option autoImplicit false

/-! ## Exact values -/

/-- A value that its text tells in full. -/
inductive Exact : Json → Prop
  | null : Exact .null
  | bool (b : Bool) : Exact (.bool b)
  | int (i : Int) : Exact (.int i)
  | text (s : String) : Exact (.text s)
  | list {items : List Json} (hitems : ∀ v ∈ items, Exact v) : Exact (.list items)
  | object {members : Object} (hkeys : members.keys.Nodup)
      (hmembers : ∀ e ∈ members, Exact e.2) : Exact (.object members)

theorem exact_texts (l : List String) : Exact (texts l) := by
  refine .list fun v hv => ?_
  obtain ⟨a, -, rfl⟩ := List.mem_map.mp hv
  exact .text a

theorem exact_optional_text (s : Option String) : Exact (optional .text s) := by
  cases s with
  | none => exact .null
  | some s => exact .text s

variable {room : Room} {fuel level : Nat} {c : Char} {gap cs behind rest : List Char}
  {v : Json}

/-! ## Blanks -/

theorem skip_cons (h : isSeparator c = false) (cs : List Char) : skip (c :: cs) = c :: cs := by
  rw [skip, List.dropWhile_cons_of_neg (by simp [h])]

theorem skip_append (h : ∀ c ∈ gap, isSeparator c = true) (cs : List Char) :
    skip (gap ++ cs) = skip cs := by
  rw [skip, List.dropWhile_append_of_pos h, skip]

theorem isSeparator_of_mem_newLine (h : c ∈ newLine level) : isSeparator c = true := by
  rcases List.mem_cons.mp h with rfl | hspace
  · rfl
  · rw [List.eq_of_mem_replicate hspace]
    rfl

theorem skip_newLine (level : Nat) (cs : List Char) : skip (newLine level ++ cs) = skip cs :=
  skip_append (fun _ => isSeparator_of_mem_newLine) cs

/-- Blanks in front of a value do not matter. -/
theorem value?_append (h : ∀ c ∈ gap, isSeparator c = true) (cs : List Char) :
    value? room fuel (gap ++ cs) = value? room fuel cs := by
  cases fuel with
  | zero => simp only [value?]
  | succ fuel => simp only [value?, skip_append h]

/-! ## Scalars -/

/-- A text that does not carry on a number in front of it. -/
def EndsNumber (rest : List Char) : Prop :=
  ∀ c ∈ rest.head?, Numeral.isAsciiDigit c = false ∧ c ∉ ['.', 'e', 'E']

theorem endsNumber_blank (h : isSeparator c = true) (cs : List Char) : EndsNumber (c :: cs) := by
  rintro _ ⟨⟩
  simp only [isSeparator, Bool.or_eq_true, decide_eq_true_eq] at h
  rcases h with ((rfl | rfl) | rfl) | rfl <;> decide

theorem endsNumber_newLine (level : Nat) (cs : List Char) : EndsNumber (newLine level ++ cs) :=
  endsNumber_blank (c := '\n') rfl _

theorem endsNumber_comma (cs : List Char) : EndsNumber (',' :: cs) := by
  rintro c ⟨⟩
  decide

theorem exponentPart_eq_none (h : EndsNumber rest) : exponentPart rest = some (none, rest) := by
  cases rest with
  | nil => rfl
  | cons c rest =>
    have hc := (h c rfl).2
    simp only [List.mem_cons, not_or] at hc
    rw [exponentPart, if_neg (not_or.mpr ⟨hc.2.1, hc.2.2.1⟩)]

theorem isWhole_toDigits (n : Nat) : isWhole (Nat.toDigits 10 n) = true := by
  by_cases hn : n = 0
  · rw [hn]
    rfl
  · have hfirst := Numeral.head?_toDigits_ne_zero hn
    obtain ⟨c, digits, hcons⟩ := List.exists_cons_of_ne_nil (Nat.toDigits_ne_nil (n := n))
    rw [hcons] at hfirst ⊢
    unfold isWhole
    split
    · next h => cases h
    · rfl
    · next h => exact absurd (congrArg List.head? h) hfirst
    · rfl

theorem numberBody_toDigits (negative : Bool) (n : Nat) (h : EndsNumber rest) :
    numberBody false negative (Nat.toDigits 10 n ++ rest) =
      some (.int (Numeral.withSign negative n), rest) := by
  obtain ⟨hwhole, hrest⟩ := Numeral.takeWhile_dropWhile_toDigits (n := n) fun c hc => (h c hc).1
  have hpoint : ∀ more, rest ≠ '.' :: more := by
    rintro more rfl
    exact (h '.' rfl).2 (by decide)
  unfold numberBody
  rw [hwhole, hrest]
  simp only [isWhole_toDigits, Bool.not_true, Bool.false_and, Bool.or_false, Bool.false_eq_true,
    if_false]
  rw [exponentPart_eq_none h, Numeral.digitsValue_toDigits]
  rfl

/-- A minus sign or a digit. -/
def BeginsNumber (c : Char) : Prop :=
  c = '-' ∨ Numeral.isAsciiDigit c = true

theorem BeginsNumber.ne {d : Char} (hc : BeginsNumber c) (hminus : d ≠ '-')
    (hdigit : Numeral.isAsciiDigit d = false) : c ≠ d := by
  rintro rfl
  rcases hc with rfl | hc
  · exact hminus rfl
  · rw [hc] at hdigit
    cases hdigit

theorem BeginsNumber.not_mem {others : List Char} (hc : BeginsNumber c)
    (h : others.all (fun d => d ≠ '-' && !Numeral.isAsciiDigit d) = true) : c ∉ others := by
  intro hmem
  have hother := List.all_eq_true.mp h c hmem
  simp only [Bool.and_eq_true, decide_eq_true_eq, Bool.not_eq_true'] at hother
  exact hc.ne hother.1 hother.2 rfl

theorem BeginsNumber.not_separator (hc : BeginsNumber c) : isSeparator c = false := by
  have hblank : c ∉ [' ', '\t', '\n', '\r'] := hc.not_mem (by decide)
  simpa [isSeparator, and_assoc] using hblank

theorem exists_toDigits (n : Nat) :
    ∃ c cs, Nat.toDigits 10 n = c :: cs ∧ Numeral.isAsciiDigit c = true := by
  obtain ⟨c, cs, hcons⟩ := List.exists_cons_of_ne_nil (Nat.toDigits_ne_nil (n := n))
  exact ⟨c, cs, hcons, Numeral.isAsciiDigit_of_mem_toDigits (hcons ▸ List.mem_cons_self)⟩

theorem exists_intChars (i : Int) : ∃ c cs, intChars i = c :: cs ∧ BeginsNumber c := by
  obtain ⟨c, cs, hcons, hc⟩ := exists_toDigits i.natAbs
  rw [intChars]
  split
  · exact ⟨_, _, rfl, .inl rfl⟩
  · exact ⟨c, cs, hcons, .inr hc⟩

theorem number?_intChars (i : Int) (h : EndsNumber rest) :
    number? false (intChars i ++ rest) = some (.int i, rest) := by
  obtain ⟨c, cs, hcons, hc⟩ := exists_toDigits i.natAbs
  rw [intChars]
  split
  · next hneg =>
    have hword : after? "Infinity" (Nat.toDigits 10 i.natAbs ++ rest) = none := by
      have hI : c ≠ 'I' := BeginsNumber.ne (.inr hc) (by decide) rfl
      simp [after?, hcons, hI.symm]
    have hi : Numeral.withSign true i.natAbs = i := by
      rw [Numeral.withSign, if_pos rfl]
      omega
    rw [List.cons_append, number?, hword]
    dsimp only
    rw [numberBody_toDigits _ _ h, hi]
  · next hpos =>
    have hi : Numeral.withSign false i.natAbs = i := by
      rw [Numeral.withSign, if_neg Bool.false_ne_true]
      omega
    have hbody := numberBody_toDigits false i.natAbs h
    rw [hcons] at hbody ⊢
    rw [List.cons_append, number?, ← List.cons_append, hbody, hi]
    rintro more ⟨⟩
    cases hc

/-- Words are told by their first letters. -/
theorem word?_cons (h : c ∉ ['n', 't', 'f', 'N', 'I']) (cs : List Char) :
    word? (c :: cs) = none := by
  simp only [List.mem_cons, not_or, ← ne_eq] at h
  obtain ⟨hn, ht, hf, hN, hI, -⟩ := h
  simp [word?, after?, hn.symm, ht.symm, hf.symm, hN.symm, hI.symm]

/-- What begins neither a text nor a list nor an object is a word or a number. -/
theorem value?_scalar (hblank : isSeparator c = false) (h : c ∉ ['\x22', '[', '\x7b'])
    (cs : List Char) : value? room (fuel + 1) (c :: cs) =
      (word? (c :: cs)).or (number? room.isBounded (c :: cs)) := by
  simp only [List.mem_cons, not_or] at h
  obtain ⟨hquote, hlist, hobject, -⟩ := h
  rw [value?, skip_cons hblank]
  split
  · next heq => exact absurd (List.cons.inj heq).1 hquote
  · next heq => exact absurd (List.cons.inj heq).1 hlist
  · next heq => exact absurd (List.cons.inj heq).1 hobject
  · rfl

/-! ## Values -/

theorem exists_indentedChars (h : Exact v) (level : Nat) :
    ∃ c cs, indentedChars level v = c :: cs ∧ isSeparator c = false ∧ c ≠ ']' := by
  cases h with
  | null => exact ⟨_, _, indentedChars_null level, by decide, by decide⟩
  | bool b =>
    cases b
    · exact ⟨_, _, indentedChars_bool level false, by decide, by decide⟩
    · exact ⟨_, _, indentedChars_bool level true, by decide, by decide⟩
  | int i =>
    obtain ⟨c, cs, hcons, hc⟩ := exists_intChars i
    exact ⟨c, cs, (indentedChars_int level i).trans hcons, hc.not_separator,
      hc.ne (by decide) rfl⟩
  | text s => exact ⟨_, _, indentedChars_text level s, by decide, by decide⟩
  | @list items _ =>
    cases items
    · exact ⟨_, _, indentedChars_list_nil level, by decide, by decide⟩
    · exact ⟨_, _, indentedChars_list_cons level _ _, by decide, by decide⟩
  | @object members _ _ =>
    cases members
    · exact ⟨_, _, indentedChars_object_nil level, by decide, by decide⟩
    · exact ⟨_, _, indentedChars_object_cons level _ _, by decide, by decide⟩

/-- In front of a value there is nothing to skip, and what begins it closes no list. -/
theorem skip_indentedChars (h : Exact v) (level : Nat) (rest : List Char) :
    skip (indentedChars level v ++ rest) = indentedChars level v ++ rest ∧
      (indentedChars level v ++ rest).head? ≠ some ']' := by
  obtain ⟨c, cs, hcons, hblank, hclose⟩ := exists_indentedChars h level
  rw [hcons, List.cons_append, List.head?_cons]
  exact ⟨skip_cons hblank _, fun hc => hclose (Option.some.inj hc)⟩

/-- The reader finds a value in its text, wherever that stands. -/
def ReadsBack (v : Json) : Prop :=
  ∀ fuel level rest, EndsNumber rest → (indentedChars level v).length ≤ fuel →
    value? none (fuel + 1) (indentedChars level v ++ rest) = some (v, rest)

theorem readsBack_null : ReadsBack .null := by
  intro fuel level rest _ _
  rw [indentedChars_null, List.cons_append, value?_scalar (by decide) (by decide)]
  simp [word?, after?]

theorem readsBack_bool (b : Bool) : ReadsBack (.bool b) := by
  intro fuel level rest _ _
  rw [indentedChars_bool]
  cases b with
  | false =>
    have hfalse : boolChars false = ['f', 'a', 'l', 's', 'e'] := by decide
    rw [hfalse, List.cons_append, value?_scalar (by decide) (by decide)]
    simp [word?, after?]
  | true =>
    have htrue : boolChars true = ['t', 'r', 'u', 'e'] := by decide
    rw [htrue, List.cons_append, value?_scalar (by decide) (by decide)]
    simp [word?, after?]

theorem readsBack_int (i : Int) : ReadsBack (.int i) := by
  intro fuel level rest hrest _
  obtain ⟨c, cs, hcons, hc⟩ := exists_intChars i
  have hnumber := number?_intChars i hrest
  rw [indentedChars_int]
  rw [hcons, List.cons_append] at hnumber ⊢
  rw [value?_scalar hc.not_separator (hc.not_mem (by decide)), word?_cons (hc.not_mem (by decide)),
    Option.none_or]
  exact hnumber

theorem stringRest_quotedChars (s : String) (rest : List Char) : ∃ cs,
    quotedChars s ++ rest = '\x22' :: cs ∧ stringRest cs = some (s.toList, rest) := by
  refine ⟨_, ?_, stringRest_flatMap_escapeChar s.toList rest⟩
  rw [quotedChars, List.append_assoc, List.cons_append, List.singleton_append]

theorem readsBack_text (s : String) : ReadsBack (.text s) := by
  intro fuel level rest _ _
  obtain ⟨cs, hquoted, hcs⟩ := stringRest_quotedChars s rest
  rw [indentedChars_text, hquoted, value?, skip_cons (by decide)]
  simp only [hcs, Option.map_some, String.ofList_toList]

/-! ## Lists -/

section Lists
variable {items : List Json}

theorem value?_items (h : (skip cs).head? ≠ some ']') : value? none (fuel + 1) ('[' :: cs) =
    (items? none fuel (skip cs)).map fun r => (.list r.1, r.2) := by
  rw [value?, skip_cons rfl]
  simp only
  split
  · next heq =>
    rw [heq] at h
    exact absurd rfl h
  · rfl

theorem items?_last (hv : value? none fuel cs = some (v, behind))
    (hskip : skip behind = ']' :: rest) :
    items? none (fuel + 1) cs = some ([v], rest) := by
  rw [items?, hv]
  simp only [hskip]

theorem items?_more (hv : value? none fuel cs = some (v, behind))
    (hskip : skip behind = ',' :: rest) :
    items? none (fuel + 1) cs =
      (items? none fuel rest).map fun r => (v :: r.1, r.2) := by
  rw [items?, hv]
  simp only [hskip]

theorem endsNumber_indentedItems (level : Nat) (items : List Json) (rest : List Char) :
    EndsNumber (indentedItems level items ++ rest) := by
  cases items with
  | nil =>
    rw [indentedItems_nil, List.append_assoc]
    exact endsNumber_newLine _ _
  | cons v items =>
    rw [indentedItems_cons]
    exact endsNumber_comma _

theorem skip_indentedItems_nil (level : Nat) (rest : List Char) :
    skip (indentedItems level [] ++ rest) = ']' :: rest := by
  rw [indentedItems_nil, List.append_assoc, skip_newLine]
  exact skip_cons rfl rest

theorem skip_indentedItems_cons (level : Nat) (v : Json) (items : List Json) (rest : List Char) :
    skip (indentedItems level (v :: items) ++ rest) = ',' :: (newLine (level + 1) ++
      (indentedChars (level + 1) v ++ (indentedItems level items ++ rest))) := by
  simp only [indentedItems_cons, List.cons_append, List.append_assoc]
  exact skip_cons rfl _

/-- Items are read one by one, whatever blanks stand in front of the first. -/
theorem items?_indentedItems (gap rest : List Char) (hv : ReadsBack v)
    (hitems : ∀ w ∈ items, ReadsBack w) (hgap : ∀ c ∈ gap, isSeparator c = true)
    (hfuel : (indentedChars (level + 1) v).length + (indentedItems level items).length ≤ fuel) :
    items? none (fuel + 1)
        (gap ++ (indentedChars (level + 1) v ++ (indentedItems level items ++ rest))) =
      some (v :: items, rest) := by
  induction items generalizing v gap fuel with
  | nil =>
    simp only [indentedItems_nil, List.length_append, List.length_singleton] at hfuel
    obtain ⟨fuel, rfl⟩ : ∃ n, fuel = n + 1 := Nat.exists_eq_add_one.mpr (by omega)
    have hread := hv fuel (level + 1) _ (endsNumber_indentedItems level [] rest) (by omega)
    rw [← value?_append hgap] at hread
    exact items?_last hread (skip_indentedItems_nil level rest)
  | cons w items ih =>
    simp only [indentedItems_cons, List.length_cons, List.length_append] at hfuel
    obtain ⟨fuel, rfl⟩ : ∃ n, fuel = n + 1 := Nat.exists_eq_add_one.mpr (by omega)
    have hread := hv fuel (level + 1) _ (endsNumber_indentedItems level (w :: items) rest)
      (by omega)
    rw [← value?_append hgap] at hread
    rw [items?_more hread (skip_indentedItems_cons level w items rest),
      ih _ (hitems w List.mem_cons_self) (fun u hu => hitems u (List.mem_cons_of_mem w hu))
        (fun _ => isSeparator_of_mem_newLine) (by omega)]
    rfl

theorem readsBack_list (hexact : ∀ v ∈ items, Exact v) (hitems : ∀ v ∈ items, ReadsBack v) :
    ReadsBack (.list items) := by
  intro fuel level rest _ hfuel
  cases items with
  | nil =>
    rw [indentedChars_list_nil]
    rfl
  | cons v items =>
    obtain ⟨hskip, hfirst⟩ := skip_indentedChars (hexact v List.mem_cons_self) (level + 1)
      (indentedItems level items ++ rest)
    simp only [indentedChars_list_cons, List.length_cons, List.length_append] at hfuel
    obtain ⟨fuel, rfl⟩ : ∃ n, fuel = n + 1 := Nat.exists_eq_add_one.mpr (by omega)
    have hread := items?_indentedItems [] rest
      (hitems v List.mem_cons_self) (fun w hw => hitems w (List.mem_cons_of_mem v hw))
      (by simp) (show _ + (indentedItems level items).length ≤ fuel by omega)
    have hopened := (skip_newLine (level + 1) _).trans hskip
    simp only [indentedChars_list_cons, List.cons_append, List.append_assoc]
    rw [← hopened] at hfirst
    rw [List.nil_append] at hread
    rw [value?_items hfirst, hopened, hread]
    rfl

end Lists

/-! ## Objects -/

section Objects
variable {key : String} {members : Object}

theorem value?_members (h : (skip cs).head? ≠ some '\x7d') : value? none (fuel + 1) ('\x7b' :: cs) =
    (members? none fuel (skip cs)).map fun r => (.object (Table.ofPairs r.1), r.2) := by
  rw [value?, skip_cons rfl]
  simp only
  split
  · next heq =>
    rw [heq] at h
    exact absurd rfl h
  · rfl

/-- A key is read with its colon, and a value behind the two of them. -/
theorem members?_key (key : String) (hgap : ∀ c ∈ gap, isSeparator c = true)
    (hv : value? none fuel cs = some (v, rest)) : ∃ text,
      skip (gap ++ (quotedChars key ++ (':' :: ' ' :: cs))) = '\x22' :: text ∧
      stringRest text = some (key.toList, ':' :: ' ' :: cs) ∧
      value? none fuel (' ' :: cs) = some (v, rest) := by
  obtain ⟨text, hquoted, htext⟩ := stringRest_quotedChars key (':' :: ' ' :: cs)
  have hblank : ∀ c ∈ [' '], isSeparator c = true := List.forall_mem_singleton.mpr rfl
  refine ⟨text, ?_, htext, (value?_append hblank cs).trans hv⟩
  rw [skip_append hgap, hquoted, skip_cons rfl]

theorem skip_colon (cs : List Char) : skip (':' :: cs) = ':' :: cs :=
  skip_cons rfl cs

theorem members?_last (key : String) (hgap : ∀ c ∈ gap, isSeparator c = true)
    (hv : value? none fuel cs = some (v, behind)) (hskip : skip behind = '\x7d' :: rest) :
    members? none (fuel + 1) (gap ++ (quotedChars key ++ (':' :: ' ' :: cs))) =
      some ([(key, v)], rest) := by
  obtain ⟨text, hquoted, htext, hvalue⟩ := members?_key key hgap hv
  rw [members?, hquoted]
  simp only [htext, skip_colon, hvalue, hskip, String.ofList_toList]

theorem members?_more (key : String) (hgap : ∀ c ∈ gap, isSeparator c = true)
    (hv : value? none fuel cs = some (v, behind)) (hskip : skip behind = ',' :: rest) :
    members? none (fuel + 1) (gap ++ (quotedChars key ++ (':' :: ' ' :: cs))) =
      (members? none fuel rest).map fun r => ((key, v) :: r.1, r.2) := by
  obtain ⟨text, hquoted, htext, hvalue⟩ := members?_key key hgap hv
  rw [members?, hquoted]
  simp only [htext, skip_colon, hvalue, hskip, String.ofList_toList]

theorem endsNumber_indentedMembers (level : Nat) (members : Object) (rest : List Char) :
    EndsNumber (indentedMembers level members ++ rest) := by
  cases members with
  | nil =>
    rw [indentedMembers_nil, List.append_assoc]
    exact endsNumber_newLine _ _
  | cons e members =>
    rw [indentedMembers_cons]
    exact endsNumber_comma _

theorem skip_indentedMembers_nil (level : Nat) (rest : List Char) :
    skip (indentedMembers level [] ++ rest) = '\x7d' :: rest := by
  rw [indentedMembers_nil, List.append_assoc, skip_newLine]
  exact skip_cons rfl rest

theorem skip_indentedMembers_cons (level : Nat) (e : String × Json) (members : Object)
    (rest : List Char) : skip (indentedMembers level (e :: members) ++ rest) =
      ',' :: (newLine (level + 1) ++ (quotedChars e.1 ++ (':' :: ' ' ::
        (indentedChars (level + 1) e.2 ++ (indentedMembers level members ++ rest))))) := by
  simp only [indentedMembers_cons, List.cons_append, List.nil_append, List.append_assoc]
  exact skip_cons rfl _

/-- Members are read one by one, whatever blanks stand in front of the first. -/
theorem members?_indentedMembers (key : String) (gap rest : List Char) (hv : ReadsBack v)
    (hmembers : ∀ e ∈ members, ReadsBack e.2) (hgap : ∀ c ∈ gap, isSeparator c = true)
    (hfuel : (indentedChars (level + 1) v).length + (indentedMembers level members).length ≤ fuel) :
    members? none (fuel + 1) (gap ++ (quotedChars key ++ (':' :: ' ' ::
        (indentedChars (level + 1) v ++ (indentedMembers level members ++ rest))))) =
      some ((key, v) :: members, rest) := by
  induction members generalizing key v gap fuel with
  | nil =>
    simp only [indentedMembers_nil, List.length_append, List.length_singleton] at hfuel
    obtain ⟨fuel, rfl⟩ : ∃ n, fuel = n + 1 := Nat.exists_eq_add_one.mpr (by omega)
    have hread := hv fuel (level + 1) _ (endsNumber_indentedMembers level [] rest) (by omega)
    exact members?_last key hgap hread (skip_indentedMembers_nil level rest)
  | cons e members ih =>
    simp only [indentedMembers_cons, List.length_cons, List.length_append] at hfuel
    obtain ⟨fuel, rfl⟩ : ∃ n, fuel = n + 1 := Nat.exists_eq_add_one.mpr (by omega)
    have hread := hv fuel (level + 1) _ (endsNumber_indentedMembers level (e :: members) rest)
      (by omega)
    rw [members?_more key hgap hread (skip_indentedMembers_cons level e members rest),
      ih _ _ (hmembers e List.mem_cons_self) (fun u hu => hmembers u (List.mem_cons_of_mem e hu))
        (fun _ => isSeparator_of_mem_newLine) (by omega)]
    rfl

theorem readsBack_object (hkeys : members.keys.Nodup) (hmembers : ∀ e ∈ members, ReadsBack e.2) :
    ReadsBack (.object members) := by
  intro fuel level rest _ hfuel
  cases members with
  | nil =>
    rw [indentedChars_object_nil]
    rfl
  | cons e members =>
    simp only [indentedChars_object_cons, List.length_cons, List.length_append] at hfuel
    obtain ⟨fuel, rfl⟩ : ∃ n, fuel = n + 1 := Nat.exists_eq_add_one.mpr (by omega)
    have hread := members?_indentedMembers e.1 [] rest
      (hmembers e List.mem_cons_self) (fun u hu => hmembers u (List.mem_cons_of_mem e hu))
      (by simp) (show _ + (indentedMembers level members).length ≤ fuel by omega)
    have hopened : skip (newLine (level + 1) ++ (quotedChars e.1 ++ (':' :: ' ' ::
        (indentedChars (level + 1) e.2 ++ (indentedMembers level members ++ rest))))) =
          quotedChars e.1 ++ (':' :: ' ' ::
            (indentedChars (level + 1) e.2 ++ (indentedMembers level members ++ rest))) := by
      rw [skip_newLine]
      exact skip_cons rfl _
    simp only [indentedChars_object_cons, List.cons_append, List.nil_append, List.append_assoc]
    rw [value?_members (by rw [hopened]; simp [quotedChars]), hopened]
    rw [List.nil_append] at hread
    rw [hread, Option.map_some, Table.ofPairs_eq_self hkeys]

end Objects

/-! ## Documents -/

theorem Exact.readsBack (h : Exact v) : ReadsBack v := by
  induction h with
  | null => exact readsBack_null
  | bool b => exact readsBack_bool b
  | int i => exact readsBack_int i
  | text s => exact readsBack_text s
  | list hitems ih => exact readsBack_list hitems ih
  | object hkeys _ ih => exact readsBack_object hkeys ih

/-- An exact value is read from its indented text, blanks behind it or not. -/
theorem parse?_indented (h : Exact v) (blanks : String)
    (hall : blanks.toList.all isSeparator = true) : parse? (v.indented ++ blanks) = some v := by
  have hblanks := List.all_eq_true.mp hall
  have hends : EndsNumber blanks.toList := by
    intro c hc
    exact endsNumber_blank (hblanks c (List.mem_of_mem_head? hc)) [] c rfl
  have hread := h.readsBack (2 * (v.indentedChars 0 ++ blanks.toList).length) 0 _ hends (by
    rw [List.length_append]
    omega)
  have hrest : skip blanks.toList = [] := by
    rw [← List.append_nil blanks.toList, skip_append hblanks]
    rfl
  rw [parse?, indented, String.toList_append, String.toList_ofList, parseChars?, hread]
  simp [hrest]

end ProjectComposer.Json
