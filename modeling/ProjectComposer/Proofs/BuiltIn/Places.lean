import ProjectComposer.Proofs.BuiltIn.Footprint
import ProjectComposer.Proofs.Layout.Directories
import ProjectComposer.Proofs.Layout.Routed
import ProjectComposer.Proofs.Path.Nesting
import ProjectComposer.Proofs.Path.Plain

/-!
Names of built-in files and directories. Whatever a built-in generator asks for, the last name of
its path looks like that of a file and all names before it like those of directories, and routing
puts nothing but directories in front. Of such paths none can name a directory above another one.
-/
namespace ProjectComposer.BuiltIn
set_option autoImplicit false
open ProjectComposer.Path

/-! ## Names -/

/-- Files without a dot in their names, except in front. -/
def undotted : List String :=
  ["pre-commit", ".prettierrc", ".prettierignore", ".lintstagedrc", ".editorconfig"]

/-- A name with a dot behind its first character, or one of those without. -/
def IsFileName (s : Segment) : Prop :=
  '.' ∈ s.tail ∨ String.ofList s ∈ undotted

instance (s : Segment) : Decidable (IsFileName s) :=
  inferInstanceAs (Decidable (_ ∨ _))

structure IsDirectoryName (s : Segment) : Prop where
  isPlainName : IsPlainName s
  not_isFileName : ¬IsFileName s

instance (s : Segment) : Decidable (IsDirectoryName s) :=
  decidable_of_iff (IsPlainName s ∧ ¬IsFileName s)
    ⟨fun h => ⟨h.1, h.2⟩, fun h => ⟨h.isPlainName, h.not_isFileName⟩⟩

/-- A path that leads through directories alone. -/
def IsDirectory (path : String) : Prop :=
  ∀ s ∈ names path, IsDirectoryName s

instance (path : String) : Decidable (IsDirectory path) :=
  inferInstanceAs (Decidable (∀ s ∈ names path, IsDirectoryName s))

/-- A path that leads through directories to a file. -/
structure IsFile (path : String) : Prop where
  above : ∀ s ∈ (names path).dropLast, IsDirectoryName s
  last : ∀ s ∈ (names path).getLast?, IsPlainName s ∧ IsFileName s

instance (path : String) : Decidable (IsFile path) :=
  decidable_of_iff ((∀ s ∈ (names path).dropLast, IsDirectoryName s) ∧
      ∀ s ∈ (names path).getLast?, IsPlainName s ∧ IsFileName s)
    ⟨fun h => ⟨h.1, h.2⟩, fun h => ⟨h.above, h.last⟩⟩

section Names
variable {a b path : String}

theorem IsDirectory.isPlain (h : IsDirectory path) : IsPlain path :=
  fun s hs => (h s hs).isPlainName

theorem IsFile.isPlain (h : IsFile path) : IsPlain path := by
  intro s hs
  rw [← List.dropLast_append_getLast (names_ne_nil path), List.mem_append, List.mem_singleton] at hs
  rcases hs with hs | rfl
  · exact (h.above s hs).isPlainName
  · exact (h.last _ (List.getLast?_eq_some_getLast (names_ne_nil path))).1

theorem IsDirectory.append (ha : IsDirectory a) (hb : IsDirectory b) :
    IsDirectory (a ++ "/" ++ b) := by
  unfold IsDirectory
  rw [names_append]
  exact List.forall_mem_append.mpr ⟨ha, hb⟩

theorem IsFile.append (ha : IsDirectory a) (hb : IsFile b) : IsFile (a ++ "/" ++ b) := by
  constructor
  · rw [names_append, List.dropLast_append_of_ne_nil (names_ne_nil b)]
    exact List.forall_mem_append.mpr ⟨ha, hb.above⟩
  · rw [names_append, List.getLast?_append_of_ne_nil _ (names_ne_nil b)]
    exact hb.last

/-- A path above another one has its last name among the directories of that one. -/
theorem nestFree_of_isFile {paths : List String} (h : ∀ p ∈ paths, IsFile p) : NestFree paths := by
  intro p hp q hq habove
  obtain ⟨more, hmore, hnames⟩ := habove.exists_names_eq
  have hlast := List.getLast?_eq_some_getLast (names_ne_nil p)
  have hmem : (names p).getLast (names_ne_nil p) ∈ (names q).dropLast := by
    rw [hnames, List.dropLast_append_of_ne_nil hmore]
    exact List.mem_append_left _ (List.getLast_mem _)
  exact ((h q hq).above _ hmem).not_isFileName ((h p hp).last _ hlast).2

end Names

/-! ## Layouts -/

/-- The root of the project, or a path that leads through directories. -/
def IsBase (path : String) : Prop :=
  path = "" ∨ IsDirectory path

instance (path : String) : Decidable (IsBase path) :=
  inferInstanceAs (Decidable (_ ∨ _))

/-- A layout without a backend whose parts are in directories. -/
structure InDirectories (l : Layout) : Prop where
  hasBackend_eq : l.hasBackend = false
  frontendPath : IsDirectory l.frontendPath
  frontendSrcPath : IsBase l.frontendSrcPath
  contractsPath : IsDirectory l.contractsPath

theorem inDirectories_ofNodes {roots : Roots} (hfrontend : IsDirectory roots.frontend)
    (hcontracts : IsDirectory roots.contracts) (nodes : List Node) (usesSource : Node → Bool) :
    InDirectories (.ofNodes nodes roots usesSource) := by
  refine ⟨?_, hfrontend, ?_, hcontracts⟩
  · simp [Layout.ofNodes, Layout.backendKinds]
  · unfold Layout.ofNodes
    dsimp only
    split
    · decide +kernel
    · exact .inl rfl

theorem isBase_join {parts : List String} (h : ∀ p ∈ parts, IsBase p) : IsBase (join parts) :=
  join_induction (fun _ hp => hp.isPlain.isNormal) (fun _ _ => IsDirectory.append) h

theorem isBase_subdirectory (c : Category) : IsBase c.subdirectory := by
  cases c <;> decide +kernel

section Layout
variable {l : Layout}

theorem isBase_directory (h : InDirectories l) (c : Category) : IsBase (l.directory c) :=
  Layout.directory_induction (fun _ => isBase_join) (by decide +kernel) isBase_subdirectory
    (.inr h.frontendPath) h.frontendSrcPath (by simp [h.hasBackend_eq]) (.inr h.contractsPath) c

/-- Where the files at a site go. -/
def placeOf (l : Layout) (s : Site) : String :=
  match s.category with
  | none => s.path
  | some c => if l.directory c = "" then s.path else l.directory c ++ "/" ++ s.path

theorem isFile_placeOf (h : InDirectories l) {s : Site} (hs : IsFile s.path) :
    IsFile (placeOf l s) := by
  unfold placeOf
  split
  · exact hs
  · next c hc =>
    split
    · exact hs
    · next hne => exact hs.append ((isBase_directory h c).resolve_left hne)

/-- A file is refused nowhere in such a layout. -/
theorem outputPath_eq (h : InDirectories l) {f : File} (hf : IsFile f.path) :
    f.outputPath l = .ok (placeOf l f.site) := by
  unfold File.outputPath placeOf File.site
  rw [hf.isPlain.normalize_eq]
  cases f.category with
  | none => rfl
  | some c =>
    change (if l.directory c = "" then pure f.path else normalize (join [l.directory c, f.path])) =
      .ok (if l.directory c = "" then f.path else l.directory c ++ "/" ++ f.path)
    split
    · rfl
    · next hne =>
      have hbase : IsDirectory (l.directory c) := (isBase_directory h c).resolve_left hne
      have hwhole : IsFile (l.directory c ++ "/" ++ f.path) := hf.append hbase
      rw [join_pair hbase.isPlain.isNormal hf.isPlain.isNormal, hwhole.isPlain.normalize_eq]

theorem isFile_outputPath (h : InDirectories l) {f : File} (hf : IsFile f.path) {path : String}
    (hpath : f.outputPath l = .ok path) : IsFile path := by
  rw [outputPath_eq h hf] at hpath
  exact Except.ok.inj hpath ▸ isFile_placeOf h hf

end Layout

/-! ## Footprints -/

/-- Once it is mapped every site has the path of a file, and so has every document. -/
structure InFiles (s : Footprint) (m : Mappings) : Prop where
  site : ∀ site ∈ s.sites, IsFile (site.mapped m).path
  doc : ∀ path ∈ s.docs, IsFile path

instance (s : Footprint) (m : Mappings) : Decidable (InFiles s m) :=
  decidable_of_iff ((∀ site ∈ s.sites, IsFile (site.mapped m).path) ∧ ∀ path ∈ s.docs, IsFile path)
    ⟨fun h => ⟨h.1, h.2⟩, fun h => ⟨h.site, h.doc⟩⟩

section Frontend
variable {l : Layout}

theorem isDirectory_pagesRoot (h : InDirectories l) : IsDirectory (Frontend.pagesRoot l) := by
  have hne : l.frontendPath ≠ "" := h.frontendPath.isPlain.isNormal.ne_empty
  have hpages : IsDirectory "pages" := by decide +kernel
  unfold Frontend.pagesRoot
  rcases h.frontendSrcPath with hsrc | hsrc
  · have hparts : [l.frontendPath, l.frontendSrcPath, "pages"].filter (fun p => p ≠ "") =
        [l.frontendPath, "pages"] := by
      simp [hne, hsrc]
    rw [hparts]
    exact h.frontendPath.append hpages
  · have hne' : l.frontendSrcPath ≠ "" := hsrc.isPlain.isNormal.ne_empty
    have hparts : [l.frontendPath, l.frontendSrcPath, "pages"].filter (fun p => p ≠ "") =
        [l.frontendPath, l.frontendSrcPath, "pages"] := by
      simp [hne, hne']
    rw [hparts]
    exact h.frontendPath.append (hsrc.append hpages)

theorem isFile_sitesIn {directory : String} {names : List String}
    (hdirectory : IsDirectory directory) (hnames : ∀ name ∈ names, IsFile name) :
    ∀ site ∈ Frontend.sitesIn directory names, IsFile site.path := by
  unfold Frontend.sitesIn
  rw [List.forall_mem_map]
  intro name hname
  rw [← String.append_assoc]
  exact (hnames name hname).append hdirectory

theorem Frontend.inFiles (h : InDirectories l) : InFiles (footprint l) plugin.mappings := by
  constructor
  · have hparts : ∀ site ∈ partSites, IsFile site.path := by decide +kernel
    have hroot : ∀ site ∈ rootSites l, IsFile site.path :=
      List.forall_mem_append.mpr ⟨isFile_sitesIn h.frontendPath (by decide +kernel),
        isFile_sitesIn (isDirectory_pagesRoot h) (by decide +kernel)⟩
    simp only [site_mapped]
    exact List.forall_mem_append.mpr ⟨hroot, hparts⟩
  · change ∀ path ∈ ["docs/frontend/README.md"], IsFile path
    decide +kernel

end Frontend

theorem inFiles_of_mem {e : Plugin × (Layout → Footprint)} (he : e ∈ footprints) {l : Layout}
    (h : InDirectories l) : InFiles (e.2 l) e.1.mappings := by
  simp only [footprints, List.mem_cons, List.not_mem_nil, or_false] at he
  rcases he with rfl | rfl | rfl | rfl | rfl | rfl
  · exact Frontend.inFiles h
  · change InFiles WalletAuth.footprint WalletAuth.plugin.mappings
    decide +kernel
  · change InFiles NftContract.footprint NftContract.plugin.mappings
    decide +kernel
  · change InFiles TelegramNotifications.footprint TelegramNotifications.plugin.mappings
    decide +kernel
  · change InFiles TelegramCommands.footprint TelegramCommands.plugin.mappings
    decide +kernel
  · change InFiles QualityGates.footprint QualityGates.plugin.mappings
    decide +kernel

theorem exists_footprint {p : Plugin} (hp : p ∈ plugins) :
    ∃ s, p.KeepsTo s ∧ ∀ l, InDirectories l → InFiles (s l) p.mappings := by
  rw [← map_fst_footprints] at hp
  obtain ⟨e, he, rfl⟩ := List.mem_map.mp hp
  exact ⟨e.2, keepsTo_of_mem he, fun _ hl => inFiles_of_mem he hl⟩

end ProjectComposer.BuiltIn
