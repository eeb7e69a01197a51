import ProjectComposer.Proofs.BuiltIn.Places
import ProjectComposer.Proofs.Path.Leading

/-!
The root of an application. Routing joins it from the configured directory, without its outer
slashes; the scaffold writes the directory as it stands in front of its own configuration files and
pages. Both mean the same root unless the directory is empty or has a slash in front: then routing
still finds one, and the scaffold asks for an absolute path.
-/
namespace ProjectComposer
set_option autoImplicit false
open ProjectComposer.Path

/-! ## Frontend categories -/

namespace Layout
variable {l : Layout} {root : List Segment} {c : Category} {f : File}

/-- What stands between the root of the application and the files of a frontend category. -/
def appParts (l : Layout) (c : Category) : List String :=
  if c = .frontendPublic then ["public"] else [l.frontendSrcPath, c.subdirectory]

/-- The application has a root: below it, in the directories of their categories, are all frontend
files that ask for a plain path. -/
def HasAppRoot (l : Layout) (root : List Segment) : Prop :=
  ∀ c : Category, c.part = .frontend → ∀ f : File, f.category = some c → IsPlain f.path →
    f.outputPath l =
      .ok (String.ofList (Text.joinAt '/' (root ++ names (join (l.appParts c ++ [f.path])))))

/-- The layout of a project with a frontend. -/
structure HostsFrontend (l : Layout) : Prop where
  hasFrontend : l.hasFrontend = true
  frontendSrcPath : l.frontendSrcPath = "" ∨ l.frontendSrcPath = "src"

theorem hostsFrontend_ofNodes {nodes : List Node} (h : ∃ n ∈ nodes, n.kind = "frontend-scaffold")
    (roots : Roots) (usesSource : Node → Bool) :
    (ofNodes nodes roots usesSource).HostsFrontend := by
  obtain ⟨n, hn, hkind⟩ := h
  constructor
  · simp only [ofNodes, List.any_eq_true, Text.mem_sortedDistinct, List.mem_map]
    exact ⟨_, ⟨n, hn, hkind⟩, by decide⟩
  · unfold ofNodes
    dsimp only
    split
    · exact .inr rfl
    · exact .inl rfl

theorem directory_eq_join (h : l.HostsFrontend) (hc : c.part = .frontend) :
    l.directory c = join (l.frontendPath :: l.appParts c) := by
  unfold directory
  rw [hc]
  dsimp only
  unfold frontendDirectory frontendRoot appParts
  rw [if_pos h.hasFrontend]
  split
  · rfl
  · rw [join_join]
    rfl

theorem outputPath_eq_normalize (h : l.HostsFrontend) (hc : c.part = .frontend)
    (hcategory : f.category = some c) (hf : IsPlain f.path) :
    f.outputPath l = normalize (join (l.frontendPath :: (l.appParts c ++ [f.path]))) := by
  have hjoined : join (l.frontendPath :: (l.appParts c ++ [f.path])) =
      join [l.directory c, f.path] := by
    rw [directory_eq_join h hc, join_join]
    rfl
  rw [hjoined]
  unfold File.outputPath
  rw [hf.normalize_eq, hcategory]
  change (if l.directory c = "" then pure f.path else normalize (join [l.directory c, f.path])) =
    normalize (join [l.directory c, f.path])
  split
  · -- At the root of the project the directory of the category joins nothing.
    next hroot =>
    have hself : join [l.directory c, f.path] = f.path := by
      rw [hroot, join_cons_of_slashes (by decide), join_cons hf.isNormal]
      rfl
    rw [hself, hf.normalize_eq]
    rfl
  · rfl

theorem isPlain_join_appParts (h : l.HostsFrontend) (c : Category) {r : String}
    (hr : IsPlain r) : IsPlain (join (l.appParts c ++ [r])) := by
  have hsrc : l.frontendSrcPath = "" ∨ IsPlain l.frontendSrcPath := by
    refine h.frontendSrcPath.imp_right fun hsrc => ?_
    rw [hsrc]
    decide +kernel
  have hparts : ∀ p ∈ l.appParts c ++ [r], p = "" ∨ IsPlain p := by
    rw [List.forall_mem_append, List.forall_mem_singleton]
    refine ⟨?_, .inr hr⟩
    unfold appParts
    split
    · rw [List.forall_mem_singleton]
      exact .inr (by decide +kernel)
    · rw [List.forall_mem_cons, List.forall_mem_singleton]
      exact ⟨hsrc, (BuiltIn.isBase_subdirectory c).imp_right BuiltIn.IsDirectory.isPlain⟩
  have hne : join (l.appParts c ++ [r]) ≠ "" := by
    rw [ne_eq, join_eq_empty, kept_append, kept_singleton, hr.isNormal.trimSlashes_eq]
    simp [hr.isNormal.ne_empty]
  have hjoined := join_induction (fun _ hp => hp.isNormal) (fun _ _ => IsPlain.append) hparts
  exact hjoined.resolve_left hne

theorem outputPath_eq_ok (h : l.HostsFrontend) (hc : c.part = .frontend)
    (hcategory : f.category = some c) (hf : IsPlain f.path) {q : String} :
    f.outputPath l = .ok q ↔ ∃ root, Opens l.frontendPath root ∧
      q = String.ofList (Text.joinAt '/' (root ++ names (join (l.appParts c ++ [f.path])))) := by
  rw [outputPath_eq_normalize h hc hcategory hf,
    normalize_join_eq_ok (isPlain_join_appParts h c hf)]

theorem hasAppRoot_of_opens (h : l.HostsFrontend) (hroot : Opens l.frontendPath root) :
    l.HasAppRoot root :=
  fun _ hc _ hcategory hf => (outputPath_eq_ok h hc hcategory hf).mpr ⟨root, hroot, rfl⟩

theorem exists_opens_of_outputPath (h : l.HostsFrontend) (hc : c.part = .frontend)
    (hcategory : f.category = some c) (hf : IsPlain f.path) {q : String}
    (hq : f.outputPath l = .ok q) : ∃ root, Opens l.frontendPath root := by
  obtain ⟨root, hroot, -⟩ := (outputPath_eq_ok h hc hcategory hf).mp hq
  exact ⟨root, hroot⟩

end Layout

/-! ## Files of the scaffold -/

namespace BuiltIn.Frontend
variable {l : Layout} {o : Options.FrontendScaffold} {c : Context} {f : File}
  {root : List Segment}

theorem mapped_eq (f : File) : f.mapped plugin.mappings = f := by
  obtain ⟨path, content, category⟩ := f
  cases category <;> rfl

/-- Where the configuration files of the application stand, seen from its root. -/
def configNames : List String :=
  ["next.config.js", "tsconfig.json", "tailwind.config.js"]

/-- Where pages stand, seen from the root of the application. -/
def pageNames (l : Layout) : List String :=
  ["_app.tsx", "index.tsx"].map fun name => join [l.frontendSrcPath, "pages"] ++ "/" ++ name

theorem isPlain_below (h : l.HostsFrontend) {rest : String}
    (hrest : rest ∈ configNames ++ pageNames l) : IsPlain rest := by
  revert rest
  unfold pageNames
  rcases h.frontendSrcPath with hsrc | hsrc
  · rw [hsrc]
    decide +kernel
  · rw [hsrc]
    decide +kernel

/-- The two ways to leave out empty parts agree. -/
theorem pagesRoot_eq (h : l.HostsFrontend) : pagesRoot l =
    if l.frontendPath = "" then join [l.frontendSrcPath, "pages"]
    else l.frontendPath ++ "/" ++ join [l.frontendSrcPath, "pages"] := by
  have hpages : join ["", "pages"] = "pages" := by decide +kernel
  have hsource : join ["src", "pages"] = "src" ++ "/" ++ "pages" := by decide +kernel
  unfold pagesRoot
  rcases h.frontendSrcPath with hsrc | hsrc
  · by_cases hroot : l.frontendPath = "" <;> simp [hroot, hsrc, hpages, Text.joinTexts]
  · by_cases hroot : l.frontendPath = "" <;> simp [hroot, hsrc, hsource, Text.joinTexts]

/-- A path that a file without a category asks for: the name that it has in the application, behind
the directory as it is configured. -/
inductive AsksFor (l : Layout) (path rest : String) : Prop
  | below (hrest : rest ∈ configNames ++ pageNames l)
    (hpath : path = l.frontendPath ++ "/" ++ rest)
  | alone (hrest : rest ∈ pageNames l) (hdirectory : l.frontendPath = "") (hpath : path = rest)

theorem exists_asksFor (h : l.HostsFrontend) {s : Site} (hs : s ∈ rootSites l) :
    ∃ rest, AsksFor l s.path rest := by
  rcases List.mem_append.mp hs with hs | hs
  · obtain ⟨name, hname, rfl⟩ := List.mem_map.mp hs
    exact ⟨name, .below (List.mem_append_left _ hname) (String.append_assoc ..).symm⟩
  · obtain ⟨name, hname, rfl⟩ := List.mem_map.mp hs
    have hrest : join [l.frontendSrcPath, "pages"] ++ "/" ++ name ∈ pageNames l :=
      List.mem_map.mpr ⟨name, hname, rfl⟩
    refine ⟨join [l.frontendSrcPath, "pages"] ++ "/" ++ name, ?_⟩
    by_cases hroot : l.frontendPath = ""
    · refine .alone hrest hroot ?_
      rw [pagesRoot_eq h, if_pos hroot, String.append_assoc]
    · refine .below (List.mem_append_right _ hrest) ?_
      rw [pagesRoot_eq h, if_neg hroot]
      simp only [String.append_assoc]

theorem site_mem_rootSites (hf : f ∈ files o c) (hcategory : f.category = none) :
    f.site ∈ rootSites c.layout := by
  have hparts : ∀ s ∈ partSites, s.category ≠ none := by decide
  refine (List.mem_append.mp (site_mem o c f hf)).resolve_right fun hpart => ?_
  exact hparts f.site hpart hcategory

theorem site_mem_partSites (hf : f ∈ files o c) (hcategory : f.category ≠ none) :
    f.site ∈ partSites := by
  have hroots : ∀ s ∈ rootSites c.layout, s.category = none := by
    simp [rootSites, sitesIn]
  refine (List.mem_append.mp (site_mem o c f hf)).resolve_left fun hroot => ?_
  exact hcategory (hroots f.site hroot)

/-- A file with a category is one of the frontend, and asks for a plain path. -/
theorem categorized (hf : f ∈ files o c) (hcategory : f.category ≠ none) :
    IsPlain f.path ∧ ∃ k, f.category = some k ∧ k.part = .frontend := by
  have hparts : ∀ s ∈ partSites, IsPlain s.path ∧ s.category.all (·.part = .frontend) := by
    decide +kernel
  obtain ⟨k, hk⟩ := Option.ne_none_iff_exists'.mp hcategory
  obtain ⟨hplain, hpart⟩ := hparts f.site (site_mem_partSites hf hcategory)
  refine ⟨hplain, k, hk, ?_⟩
  have hk' : f.site.category = some k := hk
  simpa [hk'] using hpart

/-! ## The configured directory -/

/-- The configured directory names the root of the application as it stands: there is something in
it, and no slash in front. -/
def NamesRoot (directory : String) : Prop :=
  directory ≠ "" ∧ ¬['/'] <+: directory.toList

theorem rooted_of_not_namesRoot {directory : String} (h : ¬NamesRoot directory) (rest : String) :
    ['/'] <+: (directory ++ "/" ++ rest).toList := by
  rw [toList_below]
  rcases not_and_or.mp h with hempty | hslash
  · rw [not_not.mp hempty]
    exact List.prefix_append ['/'] _
  · exact (not_not.mp hslash).trans (List.prefix_append _ _)

/-- A file without a category is accepted if and only if the directory in front of it names the
root of the application, and then it goes below that root; otherwise its path is absolute. -/
theorem normalize_asksFor (h : l.HostsFrontend) (hroot : Opens l.frontendPath root)
    {path rest : String} (hasks : AsksFor l path rest) :
    normalize path = .ok (String.ofList (Text.joinAt '/' (root ++ names rest))) ∨
      ¬NamesRoot l.frontendPath ∧ normalize path = .error (.absolute path) := by
  cases hasks with
  | below hrest hpath =>
    by_cases hnames : NamesRoot l.frontendPath
    · have hleads := (opens_iff_leads hnames.1 hnames.2).mp hroot
      refine .inl ?_
      rw [hpath]
      exact (normalize_below_eq_ok (isPlain_below h hrest)).mpr ⟨root, hleads, rfl⟩
    · refine .inr ⟨hnames, normalize_of_rooted ?_⟩
      rw [hpath]
      exact rooted_of_not_namesRoot hnames rest
  | alone hrest hdirectory hpath =>
    have hplain := isPlain_below h (List.mem_append_right _ hrest)
    obtain rfl : root = [] := by
      rw [hdirectory] at hroot
      exact hroot
    refine .inl ?_
    rw [hpath, hplain.normalize_eq, List.nil_append, names, Text.joinAt_splitAt,
      String.ofList_toList]

/-! ## Routed files -/

theorem routed_eq_ok_of_outputPath {q : String} (h : f.outputPath l = .ok q) :
    f.routed plugin.mappings l = .ok ⟨q, f.content, none⟩ := by
  rw [File.routed_eq_ok, mapped_eq]
  exact ⟨h, rfl⟩

theorem outputPath_of_uncategorized (h : f.category = none) :
    f.outputPath l = normalize f.path := by
  unfold File.outputPath
  rw [h]
  cases normalize f.path <;> rfl

theorem exists_routed_of_hasAppRoot (h : c.layout.HasAppRoot root) (hf : f ∈ files o c)
    (hcategory : f.category ≠ none) : ∃ g, f.routed plugin.mappings c.layout = .ok g := by
  obtain ⟨hplain, k, hk, hpart⟩ := categorized hf hcategory
  exact ⟨_, routed_eq_ok_of_outputPath (h k hpart f hk hplain)⟩

/-- The library is there whatever the options, and it tells of the root. -/
theorem exists_opens_of_routed (h : c.layout.HostsFrontend)
    (hroutes : ∀ f ∈ files o c, f.category ≠ none →
      ∃ g, f.routed plugin.mappings c.layout = .ok g) :
    ∃ root, Opens c.layout.frontendPath root := by
  have hmem : ⟨"utils.ts", utils, some .frontendLib⟩ ∈ files o c := by simp [files]
  obtain ⟨g, hg⟩ := hroutes _ hmem (Option.some_ne_none _)
  rw [File.routed_eq_ok, mapped_eq] at hg
  exact Layout.exists_opens_of_outputPath h rfl rfl (by decide +kernel) hg.1

/-- What becomes of a file without a category in an application with a root. -/
inductive Settles (l : Layout) (root : List Segment) (f : File) : Prop
  | placed {rest : String} (hasks : AsksFor l f.path rest)
    (hrouted : f.routed plugin.mappings l =
      .ok ⟨String.ofList (Text.joinAt '/' (root ++ names rest)), f.content, none⟩)
  | refused {rest : String} (hasks : AsksFor l f.path rest) (hnames : ¬NamesRoot l.frontendPath)
    (hrouted : f.routed plugin.mappings l = .error (.absolute f.path))

theorem settles (h : c.layout.HostsFrontend) (hroot : Opens c.layout.frontendPath root)
    (hf : f ∈ files o c) (hcategory : f.category = none) : Settles c.layout root f := by
  obtain ⟨rest, hasks⟩ := exists_asksFor h (site_mem_rootSites hf hcategory)
  rcases normalize_asksFor h hroot hasks with hok | ⟨hnames, herror⟩
  · refine .placed hasks (routed_eq_ok_of_outputPath ?_)
    rw [outputPath_of_uncategorized hcategory]
    exact hok
  · refine .refused hasks hnames ?_
    rw [File.routed_eq_error, mapped_eq, outputPath_of_uncategorized hcategory]
    exact herror

/-- The scaffold always configures the application, and cannot do so in a directory that does not
name the root. -/
theorem exists_refused (h : ¬NamesRoot c.layout.frontendPath) : ∃ f ∈ files o c,
    f.category = none ∧ f.routed plugin.mappings c.layout = .error (.absolute f.path) := by
  refine ⟨⟨c.layout.frontendPath ++ "/" ++ "next.config.js", nextConfig, none⟩, ?_, rfl, ?_⟩
  · simp [files, String.append_assoc]
  · rw [File.routed_eq_error, mapped_eq, outputPath_of_uncategorized rfl]
    exact normalize_of_rooted (rooted_of_not_namesRoot h "next.config.js")

/-- If all files of the scaffold that have a category are accepted, the application has a root. The
other files are accepted as well if and only if the configured directory names that root. Each of
them goes below the root, or it is refused since it asks for an absolute path. -/
theorem files_atAppRoot {nodes : List Node} {roots : Roots} {usesSource : Node → Bool}
    (hfrontend : ∃ n ∈ nodes, n.kind = plugin.id)
    (hlayout : c.layout = .ofNodes nodes roots usesSource)
    (hroutes : ∀ f ∈ files o c, f.category ≠ none →
      ∃ g, f.routed plugin.mappings c.layout = .ok g) :
    ∃ root, c.layout.HasAppRoot root ∧
      ((∀ f ∈ files o c, f.category = none → ∃ g, f.routed plugin.mappings c.layout = .ok g) ↔
        NamesRoot roots.frontend) ∧
      ∀ f ∈ files o c, f.category = none → Settles c.layout root f := by
  have hhosts : c.layout.HostsFrontend := hlayout ▸ Layout.hostsFrontend_ofNodes hfrontend _ _
  have hpath : c.layout.frontendPath = roots.frontend := by rw [hlayout]; rfl
  obtain ⟨root, hroot⟩ := exists_opens_of_routed hhosts hroutes
  rw [← hpath]
  refine ⟨root, Layout.hasAppRoot_of_opens hhosts hroot, ⟨fun hall => ?_, fun hnames => ?_⟩,
    fun f hf hcategory => settles hhosts hroot hf hcategory⟩
  · by_contra hnames
    obtain ⟨f, hf, hcategory, herror⟩ := exists_refused (o := o) hnames
    obtain ⟨g, hg⟩ := hall f hf hcategory
    rw [herror] at hg
    cases hg
  · intro f hf hcategory
    cases settles hhosts hroot hf hcategory with
    | placed _ hrouted => exact ⟨_, hrouted⟩
    | refused _ hnot _ => exact absurd hnames hnot

/-- A project with a scaffold alone, whose application is in a directory. -/
def scaffoldIn (directory : String) : Layout :=
  .ofNodes [⟨"web", plugin.id, [], none⟩] { frontend := directory } fun _ => true

def contextIn (directory : String) (o : Options.FrontendScaffold) : Context where
  blueprintId := "b"
  nodeId := "web"
  settings := { project := { name := "Shop" } }
  layout := scaffoldIn directory
  config := .frontendScaffold o

theorem hostsFrontend_scaffoldIn (directory : String) : (scaffoldIn directory).HostsFrontend :=
  Layout.hostsFrontend_ofNodes ⟨_, List.mem_singleton_self _, rfl⟩ _ _

/-- Dots, a backslash and a slash at the end are all understood alike. -/
theorem files_atAppRoot_spelled :
    let c := contextIn "./apps\\web/" { projectStructure := .pagesRouter }
    (∃ n ∈ [(⟨"web", plugin.id, [], none⟩ : Node)], n.kind = plugin.id) ∧
    (∀ f ∈ files { projectStructure := .pagesRouter } c, f.category ≠ none →
      ∃ g, f.routed plugin.mappings c.layout = .ok g) ∧
    ∀ f ∈ files { projectStructure := .pagesRouter } c, f.category = none →
      ∃ g, f.routed plugin.mappings c.layout = .ok g := by
  intro c
  have hroot : Opens "./apps\\web/" [['a', 'p', 'p', 's'], ['w', 'e', 'b']] := by
    rw [opens_iff_leads (by decide) (by decide)]
    exact ⟨isRelative_iff.mpr (by decide), by decide⟩
  have hall := Layout.hasAppRoot_of_opens (hostsFrontend_scaffoldIn _) hroot
  have hroutes : ∀ f ∈ files { projectStructure := .pagesRouter } c, f.category ≠ none →
      ∃ g, f.routed plugin.mappings c.layout = .ok g :=
    fun f hf hcategory => exists_routed_of_hasAppRoot hall hf hcategory
  have hfrontend : ∃ n ∈ [(⟨"web", plugin.id, [], none⟩ : Node)], n.kind = plugin.id :=
    ⟨_, List.mem_singleton_self _, rfl⟩
  obtain ⟨root, -, hiff, -⟩ := files_atAppRoot hfrontend rfl hroutes
  exact ⟨hfrontend, hroutes, hiff.mpr ⟨by decide, by decide⟩⟩

/-- With an empty directory the application is at the root of the project, but not its
configuration. -/
theorem files_atAppRoot_emptyDirectory :
    let c := contextIn "" {}
    c.layout.HasAppRoot [] ∧
    (∀ f ∈ files {} c, f.category ≠ none → ∃ g, f.routed plugin.mappings c.layout = .ok g) ∧
    ∃ f ∈ files {} c, f.category = none ∧
      f.routed plugin.mappings c.layout = .error (.absolute "/next.config.js") := by
  intro c
  have hall : c.layout.HasAppRoot [] :=
    Layout.hasAppRoot_of_opens (hostsFrontend_scaffoldIn "") rfl
  refine ⟨hall, fun f hf hcategory => exists_routed_of_hasAppRoot hall hf hcategory, ?_⟩
  refine ⟨⟨"/next.config.js", nextConfig, none⟩, List.mem_cons_self, rfl, ?_⟩
  rw [File.routed_eq_error, mapped_eq, outputPath_of_uncategorized rfl]
  exact normalize_of_rooted (by decide)

end BuiltIn.Frontend
end ProjectComposer
