import ProjectComposer.Proofs.Path.Plain
import ProjectComposer.Proofs.Table

/-!
Files and directories of one name. A file whose path goes on from the path of another file wants a
directory where that file is, so the two cannot stand side by side. Files that are written one after
the other, in any order, all find room on an empty disk exactly if there are no two such files, and
each can then be read back.
-/
namespace ProjectComposer
set_option autoImplicit false

namespace Path

/-! ## Directories above a path -/

/-- The first path, followed by a slash, begins the second one. -/
def IsAbove (directory path : String) : Prop :=
  directory.toList ++ ['/'] <+: path.toList

instance (directory path : String) : Decidable (IsAbove directory path) :=
  inferInstanceAs (Decidable (directory.toList ++ ['/'] <+: path.toList))

variable {p q directory path : String} {ps qs : List String}

theorem not_isAbove_self (path : String) : ¬IsAbove path path := by
  intro h
  have hlength := h.length_le
  rw [List.length_append, List.length_singleton] at hlength
  omega

/-- Only a path with a slash has a directory above it. -/
theorem IsAbove.slash_mem (h : IsAbove directory path) : '/' ∈ path.toList :=
  h.subset (by simp)

/-- The names of a path are the first ones of every path that it is above. -/
theorem IsAbove.exists_names_eq (h : IsAbove directory path) :
    ∃ more, more ≠ [] ∧ names path = names directory ++ more := by
  obtain ⟨rest, hrest⟩ := h
  refine ⟨Text.splitAt '/' rest, Text.splitAt_ne_nil '/' rest, ?_⟩
  rw [names, ← hrest, List.append_assoc, List.singleton_append, Text.splitAt_append_cons, names]

/-- No path names a directory above another one. -/
def NestFree (paths : List String) : Prop :=
  ∀ p ∈ paths, ∀ q ∈ paths, ¬IsAbove p q

instance (paths : List String) : Decidable (NestFree paths) :=
  inferInstanceAs (Decidable (∀ p ∈ paths, ∀ q ∈ paths, ¬IsAbove p q))

theorem NestFree.mono (h : NestFree qs) (hsub : ps ⊆ qs) : NestFree ps :=
  fun p hp q hq => h p (hsub hp) q (hsub hq)

theorem nestFree_perm (h : ps.Perm qs) : NestFree ps ↔ NestFree qs :=
  ⟨fun hfree => hfree.mono h.symm.subset, fun hfree => hfree.mono h.subset⟩

theorem nestFree_cons :
    NestFree (p :: ps) ↔ NestFree ps ∧ ∀ q ∈ ps, ¬IsAbove p q ∧ ¬IsAbove q p := by
  constructor
  · intro h
    refine ⟨h.mono (List.subset_cons_self p ps), fun q hq => ⟨?_, ?_⟩⟩
    · exact h p List.mem_cons_self q (List.mem_cons_of_mem p hq)
    · exact h q (List.mem_cons_of_mem p hq) p List.mem_cons_self
  · rintro ⟨hrest, hfirst⟩
    intro a ha b hb
    rcases List.mem_cons.mp ha with rfl | ha'
    · rcases List.mem_cons.mp hb with rfl | hb'
      · exact not_isAbove_self b
      · exact (hfirst b hb').1
    · rcases List.mem_cons.mp hb with rfl | hb'
      · exact (hfirst a ha').2
      · exact hrest a ha' b hb'

end Path

open ProjectComposer.Path

/-! ## Disks -/

/-- What is on a disk below the root of a project. -/
structure Disk where
  content : String → Option String
  IsDirectory : String → Prop

namespace Disk

def empty : Disk where
  content := fun _ => none
  IsDirectory := fun _ => False

/-- There is room for a file: its path is no directory, and no path above it is a file. -/
structure Admits (d : Disk) (path : String) : Prop where
  not_isDirectory : ¬d.IsDirectory path
  not_file_above : ∀ q, IsAbove q path → d.content q = none

/-- The disk once a file is written and the directories above it are made. -/
def put (d : Disk) (path content : String) : Disk where
  content := fun q => if q = path then some content else d.content q
  IsDirectory := fun q => d.IsDirectory q ∨ IsAbove q path

/-- Files are written in turn, each where there is room for it. -/
inductive Stores : Disk → Table String → Disk → Prop
  | nil {d : Disk} : Stores d [] d
  | cons {d full : Disk} {path content : String} {more : Table String} (room : d.Admits path)
      (after : Stores (d.put path content) more full) : Stores d ((path, content) :: more) full

variable {d full : Disk} {path content q : String} {files : Table String}

theorem admits_empty (path : String) : empty.Admits path :=
  ⟨id, fun _ _ => rfl⟩

/-- A file takes the room of those above and below it, and of no others. -/
theorem admits_put :
    (d.put path content).Admits q ↔ d.Admits q ∧ ¬IsAbove path q ∧ ¬IsAbove q path := by
  constructor
  · rintro ⟨hdirectory, habove⟩
    have hq : ¬IsAbove path q := by
      intro h
      have hnone : (if path = path then some content else d.content path) = none := habove path h
      rw [if_pos rfl] at hnone
      cases hnone
    refine ⟨⟨fun h => hdirectory (.inl h), fun s hs => ?_⟩, hq, fun h => hdirectory (.inr h)⟩
    have hne : s ≠ path := fun h => hq (h ▸ hs)
    have hnone : (if s = path then some content else d.content s) = none := habove s hs
    rwa [if_neg hne] at hnone
  · rintro ⟨⟨hdirectory, habove⟩, hq, hpath⟩
    refine ⟨not_or.mpr ⟨hdirectory, hpath⟩, fun s hs => ?_⟩
    have hne : s ≠ path := fun h => hq (h ▸ hs)
    change (if s = path then some content else d.content s) = none
    rw [if_neg hne, habove s hs]

theorem exists_stores_iff :
    (∃ full, d.Stores files full) ↔ NestFree files.keys ∧ ∀ p ∈ files.keys, d.Admits p := by
  induction files generalizing d with
  | nil =>
    refine ⟨fun _ => ⟨?_, ?_⟩, fun _ => ⟨d, .nil⟩⟩
    · intro p hp
      cases hp
    · intro p hp
      cases hp
  | cons f files ih =>
    obtain ⟨path, content⟩ := f
    have hkeys : Table.keys ((path, content) :: files) = path :: Table.keys files := rfl
    -- Writing the first file first leaves room for the others unless they are above or below it.
    have hstep : (∃ full, d.Stores ((path, content) :: files) full) ↔
        d.Admits path ∧ ∃ full, (d.put path content).Stores files full := by
      constructor
      · rintro ⟨full, hstores⟩
        cases hstores with
        | cons room after => exact ⟨room, full, after⟩
      · rintro ⟨room, full, after⟩
        exact ⟨full, .cons room after⟩
    rw [hstep, ih, hkeys, nestFree_cons, List.forall_mem_cons]
    simp only [admits_put]
    constructor
    · rintro ⟨hpath, hfree, hrest⟩
      exact ⟨⟨hfree, fun q hq => (hrest q hq).2⟩, hpath, fun q hq => (hrest q hq).1⟩
    · rintro ⟨⟨hfree, hapart⟩, hpath, hrest⟩
      exact ⟨hpath, hfree, fun q hq => ⟨hrest q hq, hapart q hq⟩⟩

/-- What is read back is what was written, and elsewhere what was there before. -/
theorem Stores.content_eq (h : d.Stores files full) (hnodup : files.keys.Nodup) (path : String) :
    full.content path = (files.get? path).or (d.content path) := by
  induction h with
  | nil => rfl
  | @cons d full p content more room after ih =>
    obtain ⟨hnew, hnodup⟩ := List.nodup_cons.mp hnodup
    rw [ih hnodup, Table.get?_cons]
    change (Table.get? more path).or (if path = p then some content else d.content path) = _
    by_cases hp : p = path
    · subst hp
      -- The path does not come again, so nothing is written over its content.
      have hnone : Table.get? more p = none := by
        rw [Option.eq_none_iff_forall_ne_some]
        intro found hfound
        exact hnew (Table.mem_keys_iff_get?.mpr ⟨found, hfound⟩)
      rw [hnone, if_pos rfl, if_pos rfl]
      rfl
    · rw [if_neg hp, if_neg (Ne.symm hp)]

/-- Files with distinct paths can be written to an empty disk, and read back, if and only if none of
them wants a directory where another one is. The order makes no difference. -/
theorem exists_stores_empty_iff (hnodup : files.keys.Nodup) {order : Table String}
    (horder : order.Perm files) : NestFree files.keys ↔
      ∃ full, empty.Stores order full ∧ ∀ path, full.content path = files.get? path := by
  have hperm : (Table.keys order).Perm files.keys := horder.map Prod.fst
  have hstores : (∃ full, empty.Stores order full) ↔ NestFree files.keys := by
    rw [exists_stores_iff, and_iff_left fun p _ => admits_empty p, nestFree_perm hperm]
  rw [← hstores]
  constructor
  · rintro ⟨full, hfull⟩
    have horderNodup : (Table.keys order).Nodup := hperm.nodup_iff.mpr hnodup
    refine ⟨full, hfull, fun path => ?_⟩
    rw [hfull.content_eq horderNodup, Table.get?_perm horder horderNodup]
    exact Option.or_none
  · rintro ⟨full, hfull, -⟩
    exact ⟨full, hfull⟩

end Disk
end ProjectComposer
