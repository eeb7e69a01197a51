import ProjectComposer.Json.Reader
import ProjectComposer.Proofs.Number.Digits
import ProjectComposer.Proofs.Table

/-!
Documents with integers that can be written. The reader of a document takes no number whose whole
part has too many digits, so all integers inside of what it returns have a text again.
-/
namespace ProjectComposer.Json
set_option autoImplicit false

/-- Every integer inside of a value can be written. -/
inductive Bounded : Json → Prop
  | null : Bounded .null
  | bool (b : Bool) : Bounded (.bool b)
  | int {i : Int} (h : Numeral.isWritable i = true) : Bounded (.int i)
  | real (x : Binary64) : Bounded (.real x)
  | text (s : String) : Bounded (.text s)
  | list {items : List Json} (hitems : ∀ v ∈ items, Bounded v) : Bounded (.list items)
  | object {members : Object} (hmembers : ∀ e ∈ members, Bounded e.2) : Bounded (.object members)

variable {room : Room} {fuel : Nat} {cs rest : List Char} {v : Json}

/-! ## Numbers -/

theorem eq_zero_or_head?_ne (h : isWhole cs = true) : cs = ['0'] ∨ cs.head? ≠ some '0' := by
  unfold isWhole at h
  split at h
  · cases h
  · exact .inl rfl
  · cases h
  · next hzero =>
    refine .inr fun hhead => ?_
    obtain ⟨rest, rfl⟩ := List.head?_eq_some_iff.mp hhead
    exact hzero rest rfl

theorem bounded_numberBody {negative : Bool} (h : numberBody true negative cs = some (v, rest)) :
    v.Bounded := by
  have hdigits : ∀ c ∈ cs.takeWhile Numeral.isAsciiDigit, Numeral.isAsciiDigit c = true :=
    fun c hc => List.mem_takeWhile_imp hc
  unfold numberBody at h
  generalize cs.takeWhile Numeral.isAsciiDigit = whole at h hdigits
  dsimp only at h
  split at h
  · cases h
  · next hshort =>
    rw [Bool.or_eq_true, not_or] at hshort
    obtain ⟨hwhole, hlong⟩ := hshort
    split at h
    · split at h
      · cases h
      · obtain ⟨r, -, hr⟩ := Option.map_eq_some_iff.mp h
        cases hr
        exact .real _
    · obtain ⟨r, -, hr⟩ := Option.map_eq_some_iff.mp h
      split at hr
      · cases hr
        exact .real _
      · cases hr
        refine .int ?_
        rw [Numeral.isWritable_withSign]
        rcases eq_zero_or_head?_ne (by simpa using hwhole) with rfl | hfirst
        · exact Numeral.isWritable_zero
        · exact Numeral.isWritable_digitsValue hdigits hfirst (by simpa using hlong)

theorem bounded_number? (h : number? true cs = some (v, rest)) : v.Bounded := by
  unfold number? at h
  split at h
  · split at h
    · cases h
      exact .real _
    · exact bounded_numberBody h
  · exact bounded_numberBody h

theorem bounded_word? (h : word? cs = some (v, rest)) : v.Bounded := by
  obtain ⟨w, hw, hafter⟩ := List.exists_of_findSome?_eq_some h
  obtain ⟨r, -, hr⟩ := Option.map_eq_some_iff.mp hafter
  cases hr
  simp only [List.mem_cons, List.not_mem_nil, or_false] at hw
  rcases hw with rfl | rfl | rfl | rfl | rfl
  · exact .null
  · exact .bool _
  · exact .bool _
  · exact .real _
  · exact .real _

/-! ## Values -/

theorem Room.isBounded_inner {inner : Room} (h : room.inner? = some inner)
    (hroom : room.isBounded = true) : inner.isBounded = true := by
  cases room with
  | none => cases hroom
  | some n =>
    cases n with
    | zero => cases h
    | succ n =>
      cases h
      rfl

/-- With a number of steps, all that is read within a bounded room is bounded. -/
structure ReadsBounded (fuel : Nat) : Prop where
  value : ∀ {room : Room} {cs rest : List Char} {v : Json}, room.isBounded = true →
    value? room fuel cs = some (v, rest) → v.Bounded
  items : ∀ {room : Room} {cs rest : List Char} {vs : List Json}, room.isBounded = true →
    items? room fuel cs = some (vs, rest) → ∀ v ∈ vs, v.Bounded
  members : ∀ {room : Room} {cs rest : List Char} {ms : List (String × Json)},
    room.isBounded = true → members? room fuel cs = some (ms, rest) → ∀ e ∈ ms, e.2.Bounded

theorem ReadsBounded.value_succ (ih : ReadsBounded fuel) (hroom : room.isBounded = true)
    (h : value? room (fuel + 1) cs = some (v, rest)) : v.Bounded := by
  unfold value? at h
  split at h
  · obtain ⟨r, -, hr⟩ := Option.map_eq_some_iff.mp h
    cases hr
    exact .text _
  · split at h
    · cases h
      exact .list (by simp)
    · obtain ⟨inner, hinner, hitems⟩ := Option.bind_eq_some_iff.mp h
      obtain ⟨⟨vs, rest⟩, hvs, hr⟩ := Option.map_eq_some_iff.mp hitems
      cases hr
      exact .list (ih.items (Room.isBounded_inner hinner hroom) hvs)
  · split at h
    · cases h
      exact .object (by simp)
    · obtain ⟨inner, hinner, hmembers⟩ := Option.bind_eq_some_iff.mp h
      obtain ⟨⟨ms, rest⟩, hms, hr⟩ := Option.map_eq_some_iff.mp hmembers
      cases hr
      have hbounded := ih.members (Room.isBounded_inner hinner hroom) hms
      exact .object fun e he => hbounded e (Table.mem_of_mem_ofPairs he)
  · rw [hroom, Option.or_eq_some_iff] at h
    rcases h with hword | ⟨-, hnumber⟩
    · exact bounded_word? hword
    · exact bounded_number? hnumber

theorem ReadsBounded.items_succ (ih : ReadsBounded fuel) (hroom : room.isBounded = true)
    {vs : List Json} (h : items? room (fuel + 1) cs = some (vs, rest)) : ∀ v ∈ vs, v.Bounded := by
  unfold items? at h
  split at h
  · cases h
  · next first _ hfirst =>
    have hbounded := ih.value hroom hfirst
    split at h
    · obtain ⟨⟨more, rest⟩, hmore, hr⟩ := Option.map_eq_some_iff.mp h
      cases hr
      exact List.forall_mem_cons.mpr ⟨hbounded, ih.items hroom hmore⟩
    · cases h
      exact List.forall_mem_singleton.mpr hbounded
    · cases h

theorem ReadsBounded.members_succ (ih : ReadsBounded fuel) (hroom : room.isBounded = true)
    {ms : List (String × Json)} (h : members? room (fuel + 1) cs = some (ms, rest)) :
    ∀ e ∈ ms, e.2.Bounded := by
  unfold members? at h
  split at h
  · split at h
    · cases h
    · split at h
      · split at h
        · cases h
        · next first _ hfirst =>
          have hbounded := ih.value hroom hfirst
          split at h
          · obtain ⟨⟨more, rest⟩, hmore, hr⟩ := Option.map_eq_some_iff.mp h
            cases hr
            exact List.forall_mem_cons.mpr ⟨hbounded, ih.members hroom hmore⟩
          · cases h
            exact List.forall_mem_singleton.mpr hbounded
          · cases h
      · cases h
  · cases h

theorem readsBounded (fuel : Nat) : ReadsBounded fuel := by
  induction fuel with
  | zero =>
    constructor
    case value => intro _ _ _ _ _ h; cases h
    case items => intro _ _ _ _ _ h; cases h
    case members => intro _ _ _ _ _ h; cases h
  | succ fuel ih =>
    constructor
    case value => exact fun hroom h => ih.value_succ hroom h
    case items => exact fun hroom h => ih.items_succ hroom h
    case members => exact fun hroom h => ih.members_succ hroom h

theorem bounded_parseDocument? {s : String} (h : parseDocument? s = some v) : v.Bounded := by
  unfold parseDocument? parseChars? at h
  split at h
  · next hread =>
    split at h
    · cases h
      exact (readsBounded _).value rfl hread
    · cases h
  · cases h

end ProjectComposer.Json
