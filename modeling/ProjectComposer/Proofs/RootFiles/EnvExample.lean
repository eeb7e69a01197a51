import Mathlib.Data.List.TakeWhile
import ProjectComposer.ProjectTree.RootFiles
import ProjectComposer.Proofs.ProjectTree.Merged
import ProjectComposer.Proofs.Text.Segments

/-!
The example of the environment, read back. Readers of such a file go line by line, pass over blank
lines and remarks, and part any other line at its first equals sign. The writer escapes nothing, so
they find the variables of the tree if and only if keys and defaults keep to their lines, keys look
like keys, and every further line of the project name and of a description is a remark by itself.
-/
namespace ProjectComposer
set_option autoImplicit false

namespace RootFiles

/-! ## Reading assignments -/

/-- A line that is blank, or a remark. -/
def isRemark (line : List Char) : Bool :=
  line.all Text.isBlank || line.head? = some '#'

/-- The key and the value on a line, parted at its first equals sign. -/
def assignment? (line : List Char) : Option (String × String) :=
  if isRemark line then none
  else some (String.ofList (line.takeWhile (· ≠ '=')),
    String.ofList ((line.dropWhile (· ≠ '=')).drop 1))

/-- The assignments of a text, line by line. -/
def assignments (cs : List Char) : List (String × String) :=
  (Text.splitAt '\n' cs).filterMap assignment?

/-- The lines of a text behind its first one. -/
def laterLines (cs : List Char) : List (List Char) :=
  (Text.splitAt '\n' cs).tail

/-- A key and a value that stand on one line and are told apart there. -/
structure Assignable (key value : String) : Prop where
  key_line : '\n' ∉ key.toList
  key_name : '=' ∉ key.toList
  key_first : key.toList.head? ≠ some '#'
  value_line : '\n' ∉ value.toList

variable {cs ds line mark : List Char} {e : String × String} {key value : String}

theorem assignment?_eq_none : assignment? line = none ↔ isRemark line = true := by
  rw [assignment?]
  split
  · next h => simp [h]
  · next h => simp [h]

@[simp] theorem assignments_nil : assignments [] = [] := rfl

theorem assignments_append_cons (cs ds : List Char) :
    assignments (cs ++ '\n' :: ds) = assignments cs ++ assignments ds := by
  rw [assignments, Text.splitAt_append_cons, List.filterMap_append, assignments, assignments]

/-- Behind a mark of remarks nothing of the first line is read. -/
theorem assignments_remark (hline : '\n' ∉ mark) (hmark : mark.head? = some '#')
    (cs : List Char) : assignments (mark ++ cs) = (laterLines cs).filterMap assignment? := by
  obtain ⟨first, more, hcut, hwhole⟩ := Text.splitAt_append_of_not_mem hline cs
  have hremark : isRemark (mark ++ first) = true := by
    simp [isRemark, List.head?_append, hmark]
  rw [assignments, hwhole, List.filterMap_cons, assignment?_eq_none.mpr hremark, laterLines, hcut,
    List.tail_cons]

theorem laterLines_eq_nil (h : '\n' ∉ cs) : laterLines cs = [] := by
  rw [laterLines, Text.splitAt_eq_singleton h, List.tail_cons]

/-- Nothing that is read breaks a line or looks like a remark. -/
theorem assignable_of_mem (h : e ∈ assignments cs) : Assignable e.1 e.2 := by
  obtain ⟨line, hline, he⟩ := List.mem_filterMap.mp h
  have hfeed := Text.not_mem_of_mem_splitAt hline
  rw [assignment?] at he
  split at he
  · cases he
  · next hremark =>
    obtain rfl := Option.some.inj he
    rw [isRemark, Bool.or_eq_true, not_or, decide_eq_true_eq] at hremark
    constructor
    · rw [String.toList_ofList]
      exact fun hmem => hfeed (List.takeWhile_subset _ hmem)
    · rw [String.toList_ofList]
      intro hmem
      simpa using List.mem_takeWhile_imp hmem
    · rw [String.toList_ofList]
      intro hhead
      cases line with
      | nil => cases hhead
      | cons c line =>
        rw [List.takeWhile_cons] at hhead
        split at hhead
        · exact hremark.2 hhead
        · cases hhead
    · rw [String.toList_ofList]
      exact fun hmem => hfeed (List.dropWhile_subset _ (List.mem_of_mem_drop hmem))

theorem assignments_pair (h : Assignable key value) :
    assignments (key.toList ++ '=' :: value.toList) = [(key, value)] := by
  have hline : '\n' ∉ key.toList ++ '=' :: value.toList := by
    simp [h.key_line, h.value_line]
  have hremark : isRemark (key.toList ++ '=' :: value.toList) = false := by
    have hblank : Text.isBlank '=' = false := by decide
    cases hkey : key.toList with
    | nil => simp [isRemark, hblank]
    | cons c rest =>
      have hfirst := h.key_first
      rw [hkey, List.head?_cons] at hfirst
      simp [isRemark, hblank, Option.some_inj.not.mp hfirst]
  have hkey : ∀ c ∈ key.toList, decide (c ≠ '=') = true := by
    intro c hc
    rw [decide_eq_true_eq]
    rintro rfl
    exact h.key_name hc
  have hbefore : (key.toList ++ '=' :: value.toList).takeWhile (· ≠ '=') = key.toList := by
    rw [List.takeWhile_append_of_pos hkey]
    simp
  have hbehind : (key.toList ++ '=' :: value.toList).dropWhile (· ≠ '=') = '=' :: value.toList := by
    rw [List.dropWhile_append_of_pos hkey]
    simp
  rw [assignments, Text.splitAt_eq_singleton hline, List.filterMap_cons, assignment?, hremark,
    hbefore, hbehind]
  simp

end RootFiles

/-! ## What is written of a variable -/

/-- The words of the remark on a variable. -/
def MergedEnvVar.remark (v : MergedEnvVar) : String :=
  (if v.description = "" then v.key else v.description) ++
    (if v.required then " (required)" else "") ++ if v.secret then " [secret]" else ""

/-- The key with the default, or with nothing where there is none. -/
def MergedEnvVar.assigned (v : MergedEnvVar) : String × String :=
  (v.key, v.default.getD "")

namespace RootFiles
variable {t : ProjectTree} {s : Settings} {v : MergedEnvVar}

/-- What a text reads as from its second line on. -/
def laterAssignments (text : String) : List (String × String) :=
  (laterLines text.toList).filterMap assignment?

theorem toList_envBlock (v : MergedEnvVar) : (envBlock v).toList =
    "# ".toList ++ v.remark.toList ++ '\n' ::
      (v.key.toList ++ '=' :: (v.default.getD "").toList) := by
  simp [envBlock, MergedEnvVar.remark]

theorem assignments_envBlock (v : MergedEnvVar) : assignments (envBlock v).toList =
    laterAssignments v.remark ++
      assignments (v.key.toList ++ '=' :: (v.default.getD "").toList) := by
  rw [toList_envBlock, assignments_append_cons, assignments_remark (by decide) (by decide),
    laterAssignments]

theorem assignments_joinTexts (texts : List String) :
    assignments (Text.joinTexts "\n\n" texts).toList =
      texts.flatMap fun text => assignments text.toList := by
  induction texts with
  | nil => rfl
  | cons text texts ih =>
    cases texts with
    | nil => simp [Text.joinTexts]
    | cons next more =>
      have hjoined : (Text.joinTexts "\n\n" (text :: next :: more)).toList =
          text.toList ++ '\n' :: ([] ++ '\n' :: (Text.joinTexts "\n\n" (next :: more)).toList) := by
        simp [Text.joinTexts]
      rw [List.flatMap_cons, hjoined, assignments_append_cons, assignments_append_cons, ih,
        assignments_nil, List.nil_append]

/-- The blocks of all variables, or a remark that there are none. -/
def envBlocks (t : ProjectTree) : String :=
  if t.envVars = [] then "# No environment variables required"
  else Text.joinTexts "\n\n" (t.envVars.map envBlock)

theorem toList_envExample (t : ProjectTree) (s : Settings) : (envExample t s).toList =
    "# Environment variables for ".toList ++ s.project.name.toList ++ '\n' ::
      ("# Copy to .env and fill in the values".toList ++ '\n' ::
        ([] ++ '\n' :: ((envBlocks t).toList ++ '\n' :: []))) := by
  have hparts (a b c d e : String) : (a ++ b ++ c ++ d ++ e).toList =
      a.toList ++ b.toList ++ (c.toList ++ (d.toList ++ e.toList)) := by
    simp
  have hcopy : "\n# Copy to .env and fill in the values\n\n".toList =
      '\n' :: ("# Copy to .env and fill in the values".toList ++ ['\n', '\n']) := by
    decide +kernel
  refine (hparts _ _ _ (envBlocks t) _).trans ?_
  rw [hcopy]
  simp only [List.append_assoc, List.cons_append, List.nil_append]
  rfl

theorem assignments_envBlocks (t : ProjectTree) : assignments (envBlocks t).toList =
    t.envVars.flatMap fun v => assignments (envBlock v).toList := by
  rw [envBlocks]
  split
  · next hnil =>
    rw [hnil]
    decide
  · rw [assignments_joinTexts, List.flatMap_map]

/-- A reader finds what the later lines of the project name hold, and for every variable what the
later lines of its remark hold and what its key and default read as. -/
theorem assignments_envExample (t : ProjectTree) (s : Settings) :
    assignments (envExample t s).toList = laterAssignments s.project.name ++
      t.envVars.flatMap fun v => laterAssignments v.remark ++
        assignments (v.key.toList ++ '=' :: (v.default.getD "").toList) := by
  have hcopy : assignments "# Copy to .env and fill in the values".toList = [] := by decide
  rw [toList_envExample, assignments_append_cons, assignments_append_cons, assignments_append_cons,
    assignments_append_cons, assignments_remark (by decide) (by decide), hcopy,
    assignments_envBlocks]
  simp only [assignments_envBlock, assignments_nil, List.nil_append, List.append_nil]
  rfl

/-! ## Reading back -/

theorem laterAssignments_eq_nil {text : String} : laterAssignments text = [] ↔
    ∀ line ∈ laterLines text.toList, isRemark line = true := by
  simp only [laterAssignments, List.filterMap_eq_nil_iff, assignment?_eq_none]

section Listed
variable {α β : Type} {l : List α} {extra : α → List β} {listed : α → β}

theorem length_le_length_flatMap_listed (l : List α) (extra : α → List β) (listed : α → β) :
    l.length ≤ (l.flatMap fun a => extra a ++ [listed a]).length := by
  induction l with
  | nil => exact Nat.le_refl _
  | cons a l ih =>
    rw [List.flatMap_cons, List.length_append, List.length_append, List.length_cons,
      List.length_singleton]
    omega

theorem extra_eq_nil_of_length_le
    (h : (l.flatMap fun a => extra a ++ [listed a]).length ≤ l.length) : ∀ a ∈ l, extra a = [] := by
  induction l with
  | nil => simp
  | cons a l ih =>
    have hle := length_le_length_flatMap_listed l extra listed
    rw [List.flatMap_cons, List.length_append, List.length_append, List.length_singleton,
      List.length_cons] at h
    have hfirst : (extra a).length = 0 := by omega
    exact List.forall_mem_cons.mpr ⟨List.length_eq_zero_iff.mp hfirst, ih (by omega)⟩

/-- Where no more is found than is listed, nothing else is found. -/
theorem eq_nil_of_append_flatMap {front : List β}
    (h : front ++ l.flatMap (fun a => extra a ++ [listed a]) = l.map listed) :
    front = [] ∧ ∀ a ∈ l, extra a = [] := by
  have hlength := congrArg List.length h
  have hle := length_le_length_flatMap_listed l extra listed
  rw [List.length_append, List.length_map] at hlength
  have hfront : front.length = 0 := by omega
  have hall : (l.flatMap fun a => extra a ++ [listed a]).length ≤ l.length := by omega
  exact ⟨List.length_eq_zero_iff.mp hfront, extra_eq_nil_of_length_le hall⟩

end Listed

theorem assignments_eq_iff (t : ProjectTree) (s : Settings) :
    assignments (envExample t s).toList = t.envVars.map MergedEnvVar.assigned ↔
      (∀ line ∈ laterLines s.project.name.toList, isRemark line = true) ∧
      ∀ v ∈ t.envVars, Assignable v.key (v.default.getD "") ∧
        ∀ line ∈ laterLines v.remark.toList, isRemark line = true := by
  simp only [← laterAssignments_eq_nil]
  constructor
  · intro h
    have hassignable : ∀ v ∈ t.envVars, Assignable v.key (v.default.getD "") := by
      intro v hv
      have hmem : v.assigned ∈ t.envVars.map MergedEnvVar.assigned := List.mem_map_of_mem hv
      exact assignable_of_mem (h ▸ hmem)
    have hpairs : t.envVars.flatMap (fun v => laterAssignments v.remark ++
        assignments (v.key.toList ++ '=' :: (v.default.getD "").toList)) =
          t.envVars.flatMap fun v => laterAssignments v.remark ++ [v.assigned] :=
      List.flatMap_congr fun v hv => by rw [assignments_pair (hassignable v hv)]; rfl
    rw [assignments_envExample, hpairs] at h
    obtain ⟨hname, hremarks⟩ := eq_nil_of_append_flatMap h
    exact ⟨hname, fun v hv => ⟨hassignable v hv, hremarks v hv⟩⟩
  · rintro ⟨hname, hvars⟩
    have hpairs : t.envVars.flatMap (fun v => laterAssignments v.remark ++
        assignments (v.key.toList ++ '=' :: (v.default.getD "").toList)) =
          t.envVars.flatMap fun v => [v.assigned] := by
      refine List.flatMap_congr fun v hv => ?_
      obtain ⟨hassignable, hremark⟩ := hvars v hv
      rw [assignments_pair hassignable, hremark]
      rfl
    rw [assignments_envExample, hname, hpairs, List.nil_append, List.map_eq_flatMap]

/-! ## Merged trees -/

theorem newline_not_mem_remark (hkey : '\n' ∉ v.key.toList)
    (hdescription : '\n' ∉ v.description.toList) : '\n' ∉ v.remark.toList := by
  have hwords : '\n' ∉ (if v.description = "" then v.key else v.description).toList := by
    split
    · exact hkey
    · exact hdescription
  have hrequired : '\n' ∉ (if v.required then " (required)" else "").toList := by
    split
    · decide
    · decide
  have hsecret : '\n' ∉ (if v.secret then " [secret]" else "").toList := by
    split
    · decide
    · decide
  simp only [MergedEnvVar.remark, String.toList_append, List.mem_append, not_or]
  exact ⟨⟨hwords, hrequired⟩, hsecret⟩

theorem newline_not_mem_describing {given : String → Prop} {text : String}
    (h : DescribesAll given text) (hgiven : ∀ d, given d → '\n' ∉ d.toList) :
    '\n' ∉ text.toList := by
  obtain ⟨shown, -, hshown, rfl⟩ := h
  intro hmem
  rcases Text.mem_joinTexts hmem with hsep | ⟨_, hs, hmem⟩
  · revert hsep
    decide
  · obtain ⟨-, d, hd, rfl⟩ := (hshown _).mp hs
    rw [Text.toList_strip] at hmem
    exact hgiven d hd (Text.mem_of_mem_trimBy hmem)

/-- A variable that is described, and given its default, on one line. -/
structure OnOneLine (a : EnvVar) : Prop where
  assignable : Assignable a.key (a.default.getD "")
  description : '\n' ∉ a.description.toList

theorem assignable_of_merges {supplied : EnvVar → Prop} (h : v.Merges supplied)
    (hkey : ∃ a, supplied a ∧ a.key = v.key) (hall : ∀ a, supplied a → OnOneLine a) :
    Assignable v.key (v.default.getD "") := by
  obtain ⟨a, ha, hkey⟩ := hkey
  obtain ⟨hline, hname, hfirst, -⟩ := hkey ▸ (hall a ha).assignable
  refine ⟨hline, hname, hfirst, ?_⟩
  cases hdefault : v.default with
  | none => simp
  | some d =>
    obtain ⟨a', ha', hd, -⟩ := (h.default_iff d).mp hdefault
    have hvalue := (hall a' ha').assignable.value_line
    rwa [hd] at hvalue

/-- A reader of the example finds the variables of a tree exactly if their keys and defaults are
told apart on lines of their own and no further line of a remark or of the project name is more than
a remark. So it is for all merged variables that are supplied on one line each, in a project whose
name is on one line. -/
theorem envExample_readBack (t : ProjectTree) (s : Settings) :
    (assignments (envExample t s).toList = t.envVars.map MergedEnvVar.assigned ↔
      (∀ line ∈ laterLines s.project.name.toList, isRemark line = true) ∧
      ∀ v ∈ t.envVars, Assignable v.key (v.default.getD "") ∧
        ∀ line ∈ laterLines v.remark.toList, isRemark line = true) ∧
    ∀ cs docs, ProjectTree.ofContributions cs docs = .ok t → '\n' ∉ s.project.name.toList →
      (∀ node a, Supplies cs Output.envVars node a → OnOneLine a) →
      assignments (envExample t s).toList = t.envVars.map MergedEnvVar.assigned := by
  refine ⟨assignments_eq_iff t s, fun cs docs h hname hvars => ?_⟩
  have hmerges := ProjectTree.ofContributions_merges h
  refine (assignments_eq_iff t s).mpr ⟨by simp [laterLines_eq_nil hname], fun v hv => ?_⟩
  have hall : ∀ a, SuppliedUnder cs Output.envVars EnvVar.key v.key a → OnOneLine a :=
    fun a ha => ha.2.elim fun node hnode => hvars node a hnode
  obtain ⟨a, ha⟩ := (hmerges.envVars.mem_names_iff v.key).mp (List.mem_map_of_mem hv)
  have hassignable := assignable_of_merges (hmerges.envVar v hv) ⟨a, ha, ha.1⟩ hall
  have hdescription : '\n' ∉ v.description.toList := by
    refine newline_not_mem_describing (hmerges.envVar v hv).describes ?_
    rintro _ ⟨a, ha, rfl⟩
    exact (hall a ha).description
  have hremark := newline_not_mem_remark hassignable.key_line hdescription
  exact ⟨hassignable, by simp [laterLines_eq_nil hremark]⟩

/-- Marks of remarks, equals signs and quotes do no harm behind the first equals sign. -/
theorem envExample_readBack_marks :
    let token : EnvVar := ⟨"BOT_TOKEN", "from @bot; KEY=value", true, some "a=b #c", true⟩
    let url : EnvVar := ⟨"URL", "", false, none, false⟩
    let cs : List Contribution :=
      [⟨"bot", "p", { envVars := [token, url] }⟩, ⟨"web", "q", { envVars := [url] }⟩]
    let s : Settings := { project := { name := "# Shop = \x22best\x22" } }
    let t : ProjectTree := {
      envVars := [⟨"BOT_TOKEN", "from @bot; KEY=value", true, some "a=b #c", true, ["bot"]⟩,
        ⟨"URL", "", false, none, false, ["bot", "web"]⟩] }
    ProjectTree.ofContributions cs true = .ok t ∧ '\n' ∉ s.project.name.toList ∧
      (∀ node a, Supplies cs Output.envVars node a → OnOneLine a) ∧
      assignments (envExample t s).toList = [("BOT_TOKEN", "a=b #c"), ("URL", "")] := by
  intro token url cs s t
  have hmerged : ProjectTree.ofContributions cs true = .ok t := by decide +kernel
  have hname : '\n' ∉ s.project.name.toList := by decide +kernel
  have htoken : OnOneLine token :=
    ⟨⟨by decide +kernel, by decide +kernel, by decide +kernel, by decide +kernel⟩,
      by decide +kernel⟩
  have hurl : OnOneLine url :=
    ⟨⟨by decide +kernel, by decide +kernel, by decide +kernel, by decide +kernel⟩,
      by decide +kernel⟩
  have hvars : ∀ node a, Supplies cs Output.envVars node a → OnOneLine a := by
    rintro node a ⟨c, hc, -, ha⟩
    simp only [cs, List.mem_cons, List.not_mem_nil, or_false] at hc
    rcases hc with rfl | rfl
    · rcases List.mem_pair.mp ha with rfl | rfl
      · exact htoken
      · exact hurl
    · exact List.mem_singleton.mp ha ▸ hurl
  exact ⟨hmerged, hname, hvars, (envExample_readBack t s).2 cs true hmerged hname hvars⟩

/-- The second line of a description is read as a variable that no node supplies. -/
theorem envExample_misread :
    let cs : List Contribution :=
      [⟨"api", "p", { envVars := [⟨"API_URL", "Base address\nDEBUG=1", false, none, false⟩] }⟩]
    let s : Settings := { project := { name := "Shop" } }
    ∃ t, ProjectTree.ofContributions cs true = .ok t ∧
      t.envVars.map MergedEnvVar.assigned = [("API_URL", "")] ∧
      assignments (envExample t s).toList = [("DEBUG", "1"), ("API_URL", "")] := by
  intro cs s
  exact ⟨{ envVars := [⟨"API_URL", "Base address\nDEBUG=1", false, none, false, ["api"]⟩] },
    by decide +kernel, by decide +kernel, by decide +kernel⟩

end RootFiles
end ProjectComposer
