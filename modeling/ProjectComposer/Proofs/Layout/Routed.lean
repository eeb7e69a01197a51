import ProjectComposer.Layout.Routing
import ProjectComposer.Proofs.Except
import ProjectComposer.Proofs.Path.Normal

/-!
Routed outputs. Routing changes where files and documents go and nothing else: contents and titles
stay, every file and document has one place in the routed output, and no other kind of artifact is
touched. All final paths are normal, and an output is refused exactly for a file or a document of
its own that has no final path.
-/
namespace ProjectComposer
set_option autoImplicit false

@[simp] theorem File.content_mapped (f : File) (m : Mappings) :
    (f.mapped m).content = f.content := by
  unfold mapped
  split
  · rfl
  · split
    · rfl
    · rfl

theorem File.routed_eq_ok {f g : File} {m : Mappings} {l : Layout} : f.routed m l = .ok g ↔
    (f.mapped m).outputPath l = .ok g.path ∧ g = { path := g.path, content := f.content } := by
  unfold routed
  simp only [bind_eq_ok, pure_eq_ok, content_mapped]
  constructor
  · rintro ⟨path, hpath, rfl⟩
    exact ⟨hpath, rfl⟩
  · rintro ⟨hpath, hg⟩
    exact ⟨_, hpath, hg.symm⟩

theorem Doc.routed_eq_ok {d e : Doc} : d.routed = .ok e ↔
    Path.normalize d.path = .ok e.path ∧ e = { d with path := e.path } := by
  unfold routed
  simp only [bind_eq_ok, pure_eq_ok]
  constructor
  · rintro ⟨path, hpath, rfl⟩
    exact ⟨hpath, rfl⟩
  · rintro ⟨hpath, he⟩
    exact ⟨_, hpath, he.symm⟩

theorem Output.routed_eq_ok {o q : Output} {m : Mappings} {l : Layout} : o.routed m l = .ok q ↔
    List.Forall₂ (fun f g => f.routed m l = .ok g) o.files q.files ∧
      List.Forall₂ (fun d e => d.routed = .ok e) o.docs q.docs ∧
      q = { o with files := q.files, docs := q.docs } := by
  unfold routed
  simp only [bind_eq_ok, pure_eq_ok, mapM_eq_ok]
  constructor
  · rintro ⟨files, hfiles, docs, hdocs, rfl⟩
    exact ⟨hfiles, hdocs, rfl⟩
  · rintro ⟨hfiles, hdocs, hq⟩
    exact ⟨_, hfiles, _, hdocs, hq.symm⟩

/-- What is in a routed output: the files at their final paths, with their contents. -/
theorem Output.mem_files_routed {o q : Output} {m : Mappings} {l : Layout}
    (h : o.routed m l = .ok q) {g : File} : g ∈ q.files ↔
      ∃ f ∈ o.files, (f.mapped m).outputPath l = .ok g.path ∧
        g = { path := g.path, content := f.content } := by
  rw [mem_iff_of_forall₂_ok (routed_eq_ok.mp h).1]
  simp only [File.routed_eq_ok]

theorem Output.mem_docs_routed {o q : Output} {m : Mappings} {l : Layout}
    (h : o.routed m l = .ok q) {e : Doc} : e ∈ q.docs ↔
      ∃ d ∈ o.docs, Path.normalize d.path = .ok e.path ∧ e = { d with path := e.path } := by
  rw [mem_iff_of_forall₂_ok (routed_eq_ok.mp h).2.1]
  simp only [Doc.routed_eq_ok]

theorem Output.entries_routed {o q : Output} {m : Mappings} {l : Layout} (h : o.routed m l = .ok q) :
    q.envVars = o.envVars ∧ q.scripts = o.scripts ∧ q.dependencies = o.dependencies := by
  obtain ⟨-, -, hq⟩ := routed_eq_ok.mp h
  rw [hq]
  exact ⟨rfl, rfl, rfl⟩

/-- Nothing is dropped: every file and every document of a routed output has a final path. -/
theorem Output.exists_path_routed {o q : Output} {m : Mappings} {l : Layout}
    (h : o.routed m l = .ok q) :
    (∀ f ∈ o.files, ∃ path, (f.mapped m).outputPath l = .ok path) ∧
      ∀ d ∈ o.docs, ∃ path, Path.normalize d.path = .ok path := by
  obtain ⟨hfiles, hdocs, -⟩ := routed_eq_ok.mp h
  refine ⟨?_, ?_⟩
  · intro f hf
    obtain ⟨g, -, hrouted⟩ := exists_mem_of_forall₂ hfiles.flip hf
    exact ⟨g.path, (File.routed_eq_ok.mp hrouted).1⟩
  · intro d hd
    obtain ⟨e, -, hrouted⟩ := exists_mem_of_forall₂ hdocs.flip hd
    exact ⟨e.path, (Doc.routed_eq_ok.mp hrouted).1⟩

/-! ## Normal paths and refusals -/

/-- Wherever the layout puts a file, its path was normalized last. -/
theorem File.isNormal_outputPath {f : File} {l : Layout} {path : String}
    (h : f.outputPath l = .ok path) : Path.IsNormal path := by
  obtain ⟨relative, hrelative, hplaced⟩ := bind_eq_ok.mp h
  split at hplaced
  · obtain rfl := pure_eq_ok.mp hplaced
    exact Path.isNormal_of_normalize hrelative
  · dsimp only at hplaced
    split at hplaced
    · obtain rfl := pure_eq_ok.mp hplaced
      exact Path.isNormal_of_normalize hrelative
    · exact Path.isNormal_of_normalize hplaced

/-- A file or a document of an output has no final path. -/
inductive Output.Strays (o : Output) (m : Mappings) (l : Layout) (e : Path.Refusal) : Prop
  | file {f : File} (hf : f ∈ o.files) (he : (f.mapped m).outputPath l = .error e)
  | doc {d : Doc} (hd : d ∈ o.docs) (he : Path.normalize d.path = .error e)

section Strays
variable {o : Output} {m : Mappings} {l : Layout} {e : Path.Refusal}

theorem File.routed_eq_error {f : File} :
    f.routed m l = .error e ↔ (f.mapped m).outputPath l = .error e := by
  unfold routed
  simp only [bind_eq_error, pure_ne_error, and_false, exists_false, or_false]

theorem Doc.routed_eq_error {d : Doc} : d.routed = .error e ↔ Path.normalize d.path = .error e := by
  unfold routed
  simp only [bind_eq_error, pure_ne_error, and_false, exists_false, or_false]

theorem Output.strays_of_routed (h : o.routed m l = .error e) : o.Strays m l e := by
  unfold routed at h
  simp only [bind_eq_error, mapM_eq_error, pure_ne_error, and_false, exists_false, or_false] at h
  rcases h with ⟨before, f, after, hfiles, -, hf⟩ | ⟨-, -, before, d, after, hdocs, -, hd⟩
  · exact .file (by simp [hfiles]) (File.routed_eq_error.mp hf)
  · exact .doc (by simp [hdocs]) (Doc.routed_eq_error.mp hd)

theorem Output.exists_routed_iff : (∃ q, o.routed m l = .ok q) ↔ ∀ e, ¬o.Strays m l e := by
  constructor
  · rintro ⟨q, hq⟩ e hstrays
    obtain ⟨hfiles, hdocs⟩ := exists_path_routed hq
    cases hstrays with
    | file hf he =>
      obtain ⟨path, hpath⟩ := hfiles _ hf
      rw [hpath] at he
      cases he
    | doc hd he =>
      obtain ⟨path, hpath⟩ := hdocs _ hd
      rw [hpath] at he
      cases he
  · intro h
    cases hrouted : o.routed m l with
    | ok q => exact ⟨q, rfl⟩
    | error e => exact absurd (strays_of_routed hrouted) (h e)

end Strays
end ProjectComposer
