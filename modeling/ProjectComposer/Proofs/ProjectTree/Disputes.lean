import ProjectComposer.Proofs.ProjectTree.Merged
import ProjectComposer.Proofs.ProjectTree.OrderFree

/-!
Disputes: keys for which contributors propose different values. Main statements: merging fails
exactly if there is a dispute; the fault is that of the first one, paths before variables before
scripts before dependencies and by key in each, and its diagnostics report every dispute once, in
this order, with all who take part in it. A dispute takes two contributions at most, so whatever can
be merged two by two can be merged together.
-/
namespace ProjectComposer
set_option autoImplicit false

/-! ## Proposals -/

/-- What all who contribute to a key have to agree on. -/
inductive Topic
  | content
  | default
  | command
  | version
  deriving DecidableEq

namespace Topic

/-- All topics, in the order in which disputes are reported. -/
def all : List Topic :=
  [.content, .default, .command, .version]

def rank : Topic → Nat
  | .content => 0
  | .default => 1
  | .command => 2
  | .version => 3

theorem mem_all (topic : Topic) : topic ∈ all := by
  cases topic <;> simp [all]

theorem pairwise_all : all.Pairwise fun t u => t.rank < u.rank := by
  decide

end Topic

/-- A contribution proposes a value for a key: the content at a path, the default of a variable
unless it is blank, the command of a script, the trimmed version of a dependency. -/
inductive Contribution.Proposes (c : Contribution) (docs : Bool) : Topic → String → String → Prop
  | content {path content : String} (h : c.Puts docs path content) :
      c.Proposes docs .content path content
  | default {v : EnvVar} {s : String} (hv : v ∈ c.output.envVars) (hs : v.default = some s)
      (hshown : Text.isBlankText s = false) : c.Proposes docs .default v.key s
  | command {s : Script} (h : s ∈ c.output.scripts) : c.Proposes docs .command s.name s.command
  | version {d : Dependency} (h : d ∈ c.output.dependencies) :
      c.Proposes docs .version d.name (Text.strip d.version)

section Proposes
variable {c : Contribution} {docs : Bool} {key value : String}

theorem proposes_content : c.Proposes docs .content key value ↔ c.Puts docs key value := by
  constructor
  · intro h
    cases h with
    | content hputs => exact hputs
  · exact .content

theorem proposes_default : c.Proposes docs .default key value ↔
    ∃ v ∈ c.output.envVars, v.key = key ∧ Merge.shownDefault v = some value := by
  simp only [Merge.shownDefault_eq_some]
  constructor
  · intro h
    cases h with
    | default hv hs hshown => exact ⟨_, hv, rfl, hs, hshown⟩
  · rintro ⟨v, hv, rfl, hs, hshown⟩
    exact .default hv hs hshown

theorem proposes_command : c.Proposes docs .command key value ↔
    ∃ s ∈ c.output.scripts, s.name = key ∧ s.command = value := by
  constructor
  · intro h
    cases h with
    | command hs => exact ⟨_, hs, rfl, rfl⟩
  · rintro ⟨s, h, rfl, rfl⟩
    exact .command h

theorem proposes_version : c.Proposes docs .version key value ↔
    ∃ d ∈ c.output.dependencies, d.name = key ∧ Merge.trimmedVersion d = value := by
  constructor
  · intro h
    cases h with
    | version hd => exact ⟨_, hd, rfl, rfl⟩
  · rintro ⟨d, h, rfl, rfl⟩
    exact .version h

end Proposes

/-- Two different values are proposed for a key. -/
def Disputed (cs : List Contribution) (docs : Bool) (topic : Topic) (key : String) : Prop :=
  ∃ c ∈ cs, ∃ d ∈ cs, ∃ v w, c.Proposes docs topic key v ∧ d.Proposes docs topic key w ∧ v ≠ w

/-! ## Disputes -/

structure Dispute where
  topic : Topic
  key : String
  values : List String
  nodes : List String
  plugins : List String

namespace Dispute

/-- What a fault says of a dispute. -/
def kind (d : Dispute) : Fault.Kind :=
  match d.topic with
  | .content => .collision d.key d.plugins d.nodes
  | .default => .conflict "env var default" d.key d.values d.nodes
  | .command => .conflict "script" d.key d.values d.nodes
  | .version => .conflict "dependency version" d.key d.values d.nodes

def diagnostic (d : Dispute) : Diagnostic where
  code := d.kind.code
  message := d.kind.message ++ (" (nodes: " ++ Fault.commaSeparated d.nodes ++ ")")
  field := if d.topic = .content then none else some d.key
  path := if d.topic = .content then some d.key else none
  pluginIds := d.plugins

/-- The fault of a dispute on its own. -/
def fault (d : Dispute) : Fault :=
  ⟨d.kind, [d.diagnostic]⟩

/-- The dispute of entries, with all that they hold. -/
def ofEntries (topic : Topic) (key : String) (es : List Merge.Entry) : Dispute where
  topic := topic
  key := key
  values := Merge.values es
  nodes := Merge.nodes es
  plugins := Merge.plugins es

theorem ofEntries_congr {topic : Topic} {key : String} {es fs : List Merge.Entry}
    (h : ∀ e, e ∈ es ↔ e ∈ fs) : ofEntries topic key es = ofEntries topic key fs := by
  rw [ofEntries, ofEntries, Merge.values, Merge.values, Merge.nodes, Merge.nodes, Merge.plugins,
    Merge.plugins, Merge.sortedDistinct_map_congr h, Merge.sortedDistinct_map_congr h,
    Merge.sortedDistinct_map_congr h]

/-- The order of reports: by topic, then by key. -/
def Before (d e : Dispute) : Prop :=
  d.topic.rank < e.topic.rank ∨ d.topic = e.topic ∧ d.key < e.key

/-- A dispute among contributions, with all values proposed and all who propose one. -/
structure Among (d : Dispute) (cs : List Contribution) (docs : Bool) : Prop where
  disputed : Disputed cs docs d.topic d.key
  values : Text.ListsInOrder d.values fun v => ∃ c ∈ cs, c.Proposes docs d.topic d.key v
  nodes : Text.ListsInOrder d.nodes fun node =>
    ∃ c ∈ cs, c.nodeId = node ∧ ∃ v, c.Proposes docs d.topic d.key v
  plugins : Text.ListsInOrder d.plugins fun plugin =>
    ∃ c ∈ cs, c.pluginId = plugin ∧ ∃ v, c.Proposes docs d.topic d.key v

theorem Before.irrefl (d : Dispute) : ¬d.Before d := by
  rintro (h | ⟨-, h⟩)
  · exact lt_irrefl _ h
  · exact lt_irrefl _ h

theorem Before.asymm {d e : Dispute} (h : d.Before e) : ¬e.Before d := by
  rintro (h' | ⟨htopic, h'⟩)
  · rcases h with h | ⟨htopic, -⟩
    · exact lt_asymm h h'
    · exact lt_irrefl _ (htopic ▸ h')
  · rcases h with h | ⟨-, h⟩
    · exact lt_irrefl _ (htopic ▸ h)
    · exact lt_asymm h h'

section Among
variable {cs : List Contribution} {docs : Bool}

/-- A dispute is settled by what it is about. -/
theorem Among.eq {d e : Dispute} (hd : d.Among cs docs) (he : e.Among cs docs)
    (htopic : d.topic = e.topic) (hkey : d.key = e.key) : d = e := by
  obtain ⟨topic, key, values, nodes, plugins⟩ := d
  obtain ⟨topic', key', values', nodes', plugins'⟩ := e
  obtain rfl : topic = topic' := htopic
  obtain rfl : key = key' := hkey
  rw [Dispute.mk.injEq]
  exact ⟨rfl, rfl, hd.values.unique he.values, hd.nodes.unique he.nodes,
    hd.plugins.unique he.plugins⟩

/-- There is one ordered list of the disputes among contributions. -/
theorem eq_of_pairwise {ds es : List Dispute} (hds : ds.Pairwise Before) (hes : es.Pairwise Before)
    (h : ∀ d, d ∈ ds ↔ d ∈ es) : ds = es := by
  have hnodup {l : List Dispute} (hl : l.Pairwise Before) : l.Nodup := by
    refine hl.imp ?_
    rintro d _ hd rfl
    exact Before.irrefl d hd
  have hperm : ds.Perm es := (List.perm_ext_iff_of_nodup (hnodup hds) (hnodup hes)).mpr h
  exact hperm.eq_of_pairwise (fun _ _ _ _ hab hba => (hab.asymm hba).elim) hds hes

end Among
end Dispute

namespace Merge

/-! ## Disagreement of entries -/

/-- Two of the entries have different values. -/
def Differ (es : List Entry) : Prop :=
  ∃ e ∈ es, ∃ e' ∈ es, e.value ≠ e'.value

instance (es : List Entry) : Decidable (Differ es) :=
  inferInstanceAs (Decidable (∃ e ∈ es, ∃ e' ∈ es, e.value ≠ e'.value))

theorem agreed_eq_error {disagreement : List Entry → Fault} {es : List Entry} {f : Fault} :
    agreed disagreement es = .error f ↔ Differ es ∧ f = disagreement es := by
  cases h : agreed disagreement es with
  | ok o =>
    -- Agreed entries share one value, if there are any.
    have hsame : ¬Differ es := by
      rintro ⟨e, he, e', he', hne⟩
      exact hne ((value_eq_of_agreed h he).trans (value_eq_of_agreed h he').symm)
    simp [hsame]
  | error g =>
    have hdiffer : Differ es := by
      by_contra hno
      have hshared : ∃ o, agreed disagreement es = .ok o := by
        cases es with
        | nil => exact ⟨none, rfl⟩
        | cons e rest =>
          refine ⟨some e.value, agreed_eq_ok.mpr (.inr ⟨_, rfl, List.cons_ne_nil _ _, ?_⟩)⟩
          intro e' he'
          by_contra hne
          exact hno ⟨e', he', e, List.mem_cons_self, hne⟩
      obtain ⟨o, ho⟩ := hshared
      rw [h] at ho
      cases ho
    have hg : g = disagreement es := by
      unfold agreed at h
      split at h
      · cases h
      · cases h
      · exact (Except.error.inj h).symm
    simp [hdiffer, hg, eq_comm]

section Errors
variable {key : String} {f : Fault}

theorem mergePath_eq_error {es : List (String × Entry)} : mergePath key es = .error f ↔
    Differ (es.map (·.2)) ∧ f = collision key (es.map (·.2)) := by
  simp only [mergePath, bind_eq_error, pure_ne_error, and_false, exists_false, or_false,
    agreed_eq_error]

theorem mergeScript_eq_error {ss : Offered Script} : mergeScript key ss = .error f ↔
    Differ (ss.map (entry Script.command)) ∧
      f = conflict "script" key (ss.map (entry Script.command)) := by
  simp only [mergeScript, bind_eq_error, pure_ne_error, and_false, exists_false, or_false,
    agreed_eq_error]

theorem mergeDependency_eq_error {ds : Offered Dependency} : mergeDependency key ds = .error f ↔
    Differ (ds.map (entry trimmedVersion)) ∧
      f = conflict "dependency version" key (ds.map (entry trimmedVersion)) := by
  simp only [mergeDependency, bind_eq_error, pure_ne_error, and_false, exists_false, or_false,
    agreed_eq_error]

/-- The defaults of variables that are not blank. -/
def shownEntries (vs : Offered EnvVar) : List Entry :=
  (vs.filterMap fun a => (shownDefault a.2).map fun s => (a.1, s)).map (entry id)

theorem mergeEnvVar_eq_error {vs : Offered EnvVar} : mergeEnvVar key vs = .error f ↔
    Differ (shownEntries vs) ∧ f = conflict "env var default" key (shownEntries vs) := by
  simp only [mergeEnvVar, bind_eq_error, pure_ne_error, and_false, exists_false, or_false,
    agreed_eq_error, shownEntries]

end Errors

/-- The faults of groups are those of the keys whose entries differ, in the order of the keys. -/
theorem faults_byKey {α β : Type} {key : α → String} {merge : String → List α → Except Fault β}
    {l : List α} {es : String → List Entry} {fault : String → Fault}
    (h : ∀ k f, merge k (l.filter fun a => key a = k) = .error f ↔ Differ (es k) ∧ f = fault k) :
    faults (byKey key merge l) =
      ((Text.sortedDistinct (l.map key)).filter fun k => Differ (es k)).map fault := by
  unfold byKey
  induction Text.sortedDistinct (l.map key) with
  | nil => rfl
  | cons k ks ih =>
    rw [List.map_cons, List.filter_cons]
    cases hk : merge k (l.filter fun a => key a = k) with
    | ok b =>
      have hagree : ¬Differ (es k) := by
        intro hdiffer
        have hfault := (h k _).mpr ⟨hdiffer, rfl⟩
        rw [hk] at hfault
        cases hfault
      rw [if_neg (by simpa using hagree)]
      exact ih
    | error f =>
      obtain ⟨hdiffer, rfl⟩ := (h k f).mp hk
      rw [if_pos (by simpa using hdiffer), List.map_cons, ← ih]
      rfl

/-! ## Entries by topic -/

section Topics
variable {cs : List Contribution} {docs : Bool}

/-- The keys of a topic that anything is put under. -/
def keysOf (cs : List Contribution) (docs : Bool) : Topic → List String
  | .content => (pathEntries cs docs).map Prod.fst
  | .default => (offered cs Output.envVars).map (·.2.key)
  | .command => (offered cs Output.scripts).map (·.2.name)
  | .version => (offered cs Output.dependencies).map (·.2.name)

/-- The values proposed for a key. -/
def entriesOf (cs : List Contribution) (docs : Bool) : Topic → String → List Entry
  | .content, path => (entriesAt cs docs path).map Prod.snd
  | .default, key => shownEntries (group cs Output.envVars EnvVar.key key)
  | .command, name => (group cs Output.scripts Script.name name).map (entry Script.command)
  | .version, name => (group cs Output.dependencies Dependency.name name).map (entry trimmedVersion)

theorem mem_map_entry_group {α : Type} {artifacts : Output → List α} {key value : α → String}
    {k : String} {e : Entry} : e ∈ (group cs artifacts key k).map (entry value) ↔
      ∃ c ∈ cs, c.nodeId = e.nodeId ∧ c.pluginId = e.pluginId ∧
        ∃ a ∈ artifacts c.output, key a = k ∧ value a = e.value := by
  simp only [List.mem_map, Prod.exists, mem_group, entry]
  constructor
  · rintro ⟨c, a, ⟨hc, ha, hk⟩, rfl⟩
    exact ⟨c, hc, rfl, rfl, a, ha, hk, rfl⟩
  · obtain ⟨node, plugin, v⟩ := e
    rintro ⟨c, hc, rfl, rfl, a, ha, hk, rfl⟩
    exact ⟨c, a, ⟨hc, ha, hk⟩, rfl⟩

theorem mem_shownEntries_group {k : String} {e : Entry} :
    e ∈ shownEntries (group cs Output.envVars EnvVar.key k) ↔
      ∃ c ∈ cs, c.nodeId = e.nodeId ∧ c.pluginId = e.pluginId ∧
        ∃ v ∈ c.output.envVars, v.key = k ∧ shownDefault v = some e.value := by
  simp only [shownEntries, List.mem_map, List.mem_filterMap, Prod.exists, mem_group,
    Option.map_eq_some_iff, Prod.mk.injEq, entry]
  constructor
  · rintro ⟨c, s, ⟨c', v, ⟨hc, hv, hk⟩, s', hs, rfl, rfl⟩, rfl⟩
    exact ⟨c', hc, rfl, rfl, v, hv, hk, hs⟩
  · obtain ⟨node, plugin, s⟩ := e
    rintro ⟨c, hc, rfl, rfl, v, hv, hk, hs⟩
    exact ⟨c, s, ⟨c, v, ⟨hc, hv, hk⟩, s, hs, rfl, rfl⟩, rfl⟩

theorem mem_entriesOf {topic : Topic} {key : String} {e : Entry} :
    e ∈ entriesOf cs docs topic key ↔
      ∃ c ∈ cs, c.nodeId = e.nodeId ∧ c.pluginId = e.pluginId ∧
        c.Proposes docs topic key e.value := by
  cases topic with
  | content => simp only [entriesOf, mem_entriesAt, proposes_content]
  | default => simp only [entriesOf, mem_shownEntries_group, proposes_default]
  | command => simp only [entriesOf, mem_map_entry_group, proposes_command]
  | version => simp only [entriesOf, mem_map_entry_group, proposes_version]

theorem mem_keys_of_mem {α : Type} {artifacts : Output → List α} (key : α → String)
    {c : Contribution} {a : α} (hc : c ∈ cs) (ha : a ∈ artifacts c.output) :
    key a ∈ (offered cs artifacts).map fun x => key x.2 :=
  List.mem_map.mpr ⟨(c, a), mem_offered.mpr ⟨hc, ha⟩, rfl⟩

theorem mem_keysOf_of_mem {topic : Topic} {key : String} {e : Entry}
    (he : e ∈ entriesOf cs docs topic key) : key ∈ keysOf cs docs topic := by
  obtain ⟨c, hc, -, -, hproposes⟩ := mem_entriesOf.mp he
  cases topic with
  | content => exact mem_paths.mpr ⟨c.nodeId, e.value, c, hc, rfl, proposes_content.mp hproposes⟩
  | default =>
    obtain ⟨v, hv, rfl, -⟩ := proposes_default.mp hproposes
    exact mem_keys_of_mem EnvVar.key hc hv
  | command =>
    obtain ⟨s, hs, rfl, -⟩ := proposes_command.mp hproposes
    exact mem_keys_of_mem Script.name hc hs
  | version =>
    obtain ⟨d, hd, rfl, -⟩ := proposes_version.mp hproposes
    exact mem_keys_of_mem Dependency.name hc hd

theorem differ_iff {topic : Topic} {key : String} :
    Differ (entriesOf cs docs topic key) ↔ Disputed cs docs topic key := by
  constructor
  · rintro ⟨e, he, e', he', hne⟩
    obtain ⟨c, hc, -, -, hv⟩ := mem_entriesOf.mp he
    obtain ⟨d, hd, -, -, hw⟩ := mem_entriesOf.mp he'
    exact ⟨c, hc, d, hd, e.value, e'.value, hv, hw, hne⟩
  · rintro ⟨c, hc, d, hd, v, w, hv, hw, hne⟩
    exact ⟨⟨c.nodeId, c.pluginId, v⟩, mem_entriesOf.mpr ⟨c, hc, rfl, rfl, hv⟩,
      ⟨d.nodeId, d.pluginId, w⟩, mem_entriesOf.mpr ⟨d, hd, rfl, rfl, hw⟩, hne⟩

/-- The dispute over a key whose entries differ. -/
def disputeOver (cs : List Contribution) (docs : Bool) (topic : Topic) (key : String) : Dispute :=
  .ofEntries topic key (entriesOf cs docs topic key)

theorem among_disputeOver {topic : Topic} {key : String} (h : Disputed cs docs topic key) :
    (disputeOver cs docs topic key).Among cs docs := by
  have hlists (part : Entry → String) {met : String → Prop}
      (hmet : ∀ x, (∃ e ∈ entriesOf cs docs topic key, part e = x) ↔ met x) :
      Text.ListsInOrder (Text.sortedDistinct ((entriesOf cs docs topic key).map part)) met :=
    Text.listsInOrder_sortedDistinct fun x => List.mem_map.trans (hmet x)
  refine ⟨h, hlists Entry.value fun v => ?_, hlists Entry.nodeId fun node => ?_,
    hlists Entry.pluginId fun plugin => ?_⟩
  · simp only [mem_entriesOf]
    constructor
    · rintro ⟨e, ⟨c, hc, -, -, hv⟩, rfl⟩
      exact ⟨c, hc, hv⟩
    · rintro ⟨c, hc, hv⟩
      exact ⟨⟨c.nodeId, c.pluginId, v⟩, ⟨c, hc, rfl, rfl, hv⟩, rfl⟩
  · simp only [mem_entriesOf]
    constructor
    · rintro ⟨e, ⟨c, hc, hnode, -, hv⟩, rfl⟩
      exact ⟨c, hc, hnode, e.value, hv⟩
    · rintro ⟨c, hc, rfl, v, hv⟩
      exact ⟨⟨c.nodeId, c.pluginId, v⟩, ⟨c, hc, rfl, rfl, hv⟩, rfl⟩
  · simp only [mem_entriesOf]
    constructor
    · rintro ⟨e, ⟨c, hc, -, hplugin, hv⟩, rfl⟩
      exact ⟨c, hc, hplugin, e.value, hv⟩
    · rintro ⟨c, hc, rfl, v, hv⟩
      exact ⟨⟨c.nodeId, c.pluginId, v⟩, ⟨c, hc, rfl, rfl, hv⟩, rfl⟩

/-! ## All disputes -/

/-- The disputes over one topic, by key. -/
def disputesOver (cs : List Contribution) (docs : Bool) (topic : Topic) : List Dispute :=
  ((Text.sortedDistinct (keysOf cs docs topic)).filter fun key =>
    Differ (entriesOf cs docs topic key)).map (disputeOver cs docs topic)

def disputes (cs : List Contribution) (docs : Bool) : List Dispute :=
  Topic.all.flatMap (disputesOver cs docs)

theorem mem_disputesOver {topic : Topic} {d : Dispute} : d ∈ disputesOver cs docs topic ↔
    ∃ key, Disputed cs docs topic key ∧ d = disputeOver cs docs topic key := by
  simp only [disputesOver, List.mem_map, List.mem_filter, Text.mem_sortedDistinct,
    decide_eq_true_eq, differ_iff]
  constructor
  · rintro ⟨key, ⟨-, hkey⟩, rfl⟩
    exact ⟨key, hkey, rfl⟩
  · rintro ⟨key, hkey, rfl⟩
    obtain ⟨e, he, -⟩ := differ_iff.mpr hkey
    exact ⟨key, ⟨mem_keysOf_of_mem he, hkey⟩, rfl⟩

theorem mem_disputes {d : Dispute} : d ∈ disputes cs docs ↔
    ∃ topic key, Disputed cs docs topic key ∧ d = disputeOver cs docs topic key := by
  simp only [disputes, List.mem_flatMap, mem_disputesOver, Topic.mem_all, true_and]

theorem mem_disputes_iff_among {d : Dispute} : d ∈ disputes cs docs ↔ d.Among cs docs := by
  rw [mem_disputes]
  constructor
  · rintro ⟨topic, key, hkey, rfl⟩
    exact among_disputeOver hkey
  · intro hd
    exact ⟨d.topic, d.key, hd.disputed, hd.eq (among_disputeOver hd.disputed) rfl rfl⟩

theorem pairwise_disputes : (disputes cs docs).Pairwise Dispute.Before := by
  refine List.pairwise_flatMap.mpr ⟨fun topic _ => ?_, ?_⟩
  · have hkeys := (Text.pairwise_sortedDistinct (keysOf cs docs topic)).filter
      fun key => Differ (entriesOf cs docs topic key)
    exact hkeys.map _ fun _ _ hlt => .inr ⟨rfl, hlt⟩
  · refine Topic.pairwise_all.imp ?_
    intro topic later hrank d hd e he
    obtain ⟨_, -, rfl⟩ := mem_disputesOver.mp hd
    obtain ⟨_, -, rfl⟩ := mem_disputesOver.mp he
    exact .inl hrank

theorem exists_mem_disputes_iff {topic : Topic} {key : String} :
    (∃ d ∈ disputes cs docs, d.topic = topic ∧ d.key = key) ↔ Disputed cs docs topic key := by
  constructor
  · rintro ⟨d, hd, rfl, rfl⟩
    exact (mem_disputes_iff_among.mp hd).disputed
  · intro h
    exact ⟨_, mem_disputes.mpr ⟨topic, key, h, rfl⟩, rfl, rfl⟩

theorem disputes_eq_nil :
    disputes cs docs = [] ↔ ∀ topic key, ¬Disputed cs docs topic key := by
  rw [List.eq_nil_iff_forall_not_mem]
  constructor
  · intro h topic key hdisputed
    obtain ⟨d, hd, -⟩ := exists_mem_disputes_iff.mpr hdisputed
    exact h d hd
  · intro h d hd
    exact h _ _ (mem_disputes_iff_among.mp hd).disputed

/-! ## Faults -/

theorem faults_paths : faults (byKey Prod.fst mergePath (pathEntries cs docs)) =
    (disputesOver cs docs .content).map Dispute.fault := by
  rw [faults_byKey fun _ _ => mergePath_eq_error, disputesOver, List.map_map]
  rfl

theorem faults_envVars (docs : Bool) :
    faults (byKey (·.2.key) mergeEnvVar (offered cs (·.envVars))) =
      (disputesOver cs docs .default).map Dispute.fault := by
  rw [faults_byKey fun _ _ => mergeEnvVar_eq_error, disputesOver, List.map_map]
  rfl

theorem faults_scripts (docs : Bool) :
    faults (byKey (·.2.name) mergeScript (offered cs (·.scripts))) =
      (disputesOver cs docs .command).map Dispute.fault := by
  rw [faults_byKey fun _ _ => mergeScript_eq_error, disputesOver, List.map_map]
  rfl

theorem faults_dependencies (docs : Bool) :
    faults (byKey (·.2.name) mergeDependency (offered cs (·.dependencies))) =
      (disputesOver cs docs .version).map Dispute.fault := by
  rw [faults_byKey fun _ _ => mergeDependency_eq_error, disputesOver, List.map_map]
  rfl

theorem raiseFirst_eq_error {ds : List Dispute} {f : Fault} :
    raiseFirst (ds.map Dispute.fault) = .error f ↔
      ∃ first more, ds = first :: more ∧ f = ⟨first.kind, ds.map Dispute.diagnostic⟩ := by
  have hdiagnostics (ds : List Dispute) :
      (ds.map Dispute.fault).flatMap (·.diagnostics) = ds.map Dispute.diagnostic := by
    rw [List.flatMap_map, List.map_eq_flatMap]
    rfl
  cases ds with
  | nil => simp [raiseFirst]
  | cons first more =>
    rw [List.map_cons, raiseFirst, ← List.map_cons, hdiagnostics, Except.error.injEq, eq_comm]
    constructor
    · rintro rfl
      exact ⟨first, more, rfl, rfl⟩
    · rintro ⟨_, _, hsame, rfl⟩
      obtain ⟨rfl, -⟩ := List.cons.inj hsame
      rfl

end Topics
end Merge

namespace ProjectTree
open Merge
variable {cs : List Contribution} {docs : Bool}

theorem ofContributions_eq_error {f : Fault} : ofContributions cs docs = .error f ↔
    ∃ first more, disputes cs docs = first :: more ∧
      f = ⟨first.kind, (disputes cs docs).map Dispute.diagnostic⟩ := by
  rw [← raiseFirst_eq_error]
  unfold ofContributions
  simp only [bind_eq_error, pure_ne_error, and_false, exists_false, or_false]
  rw [faults_paths, faults_envVars docs, faults_scripts docs, faults_dependencies docs]
  simp [disputes, Topic.all]

/-- A dispute that no other one comes before is the fault. -/
theorem exists_ofContributions_eq_error {d : Dispute} (hd : d.Among cs docs)
    (hfirst : ∀ e : Dispute, e.Among cs docs → ¬e.Before d) :
    ∃ diagnostics, ofContributions cs docs = .error ⟨d.kind, diagnostics⟩ := by
  have hmem : d ∈ disputes cs docs := mem_disputes_iff_among.mpr hd
  have hbefore : (disputes cs docs).Pairwise Dispute.Before := pairwise_disputes
  obtain ⟨first, more, hds⟩ := List.exists_cons_of_ne_nil (List.ne_nil_of_mem hmem)
  have hamong : first.Among cs docs := mem_disputes_iff_among.mp (hds ▸ List.mem_cons_self)
  rw [hds] at hmem hbefore
  have heq : d = first := by
    rcases List.mem_cons.mp hmem with heq | hlater
    · exact heq
    · exact absurd ((List.pairwise_cons.mp hbefore).1 d hlater) (hfirst first hamong)
  subst heq
  exact ⟨_, ofContributions_eq_error.mpr ⟨d, more, hds, rfl⟩⟩

theorem exists_ofContributions_iff :
    (∃ t, ofContributions cs docs = .ok t) ↔ ∀ topic key, ¬Disputed cs docs topic key := by
  rw [← disputes_eq_nil]
  cases h : ofContributions cs docs with
  | error f =>
    obtain ⟨first, more, hds, -⟩ := ofContributions_eq_error.mp h
    simp [hds]
  | ok t =>
    cases hds : disputes cs docs with
    | nil => simp
    | cons first more =>
      have hfault := ofContributions_eq_error.mpr ⟨first, more, hds, rfl⟩
      rw [h] at hfault
      cases hfault

/-- Merging fails exactly where there is a dispute. The fault is that of the first dispute, and it
reports all of them. -/
theorem ofContributions_disputes (cs : List Contribution) (docs : Bool) :
    ((∃ f, ofContributions cs docs = .error f) ↔ ∃ topic key, Disputed cs docs topic key) ∧
    ∃ ds : List Dispute, ds.Pairwise Dispute.Before ∧ (∀ d, d ∈ ds ↔ d.Among cs docs) ∧
      (∀ topic key,
        (∃ d ∈ ds, d.topic = topic ∧ d.key = key) ↔ Disputed cs docs topic key) ∧
      ∀ f, ofContributions cs docs = .error f ↔
        ∃ first more, ds = first :: more ∧ f = ⟨first.kind, ds.map Dispute.diagnostic⟩ := by
  refine ⟨?_, disputes cs docs, pairwise_disputes, fun d => mem_disputes_iff_among,
    fun topic key => exists_mem_disputes_iff, fun f => ofContributions_eq_error⟩
  constructor
  · rintro ⟨f, hf⟩
    obtain ⟨first, more, hds, -⟩ := ofContributions_eq_error.mp hf
    have hfirst : first ∈ disputes cs docs := hds ▸ List.mem_cons_self
    exact ⟨_, _, (mem_disputes_iff_among.mp hfirst).disputed⟩
  · rintro ⟨topic, key, hdisputed⟩
    obtain ⟨d, hd, -⟩ := exists_mem_disputes_iff.mpr hdisputed
    obtain ⟨first, more, hds⟩ := List.exists_cons_of_ne_nil (List.ne_nil_of_mem hd)
    exact ⟨_, ofContributions_eq_error.mpr ⟨first, more, hds, rfl⟩⟩

/-- A blank default and a blank around a version are no part of a dispute; a node that has no say in
the default is not named for it. -/
example :
    let shop : Output := {
      files := [⟨"b.md", "# Guide", none⟩]
      envVars := [⟨"KEY", "", true, some "1", false⟩]
      dependencies := [⟨"zod", " 3.0.0 ", false⟩, ⟨"axios", "1.2.0", false⟩] }
    let desk : Output := {
      docs := [⟨"b.md", "Guide", ""⟩]
      envVars := [⟨"KEY", "", true, some "2", false⟩]
      scripts := [⟨"dev", "run dev", none⟩]
      dependencies := [⟨"zod", "3.0.0", false⟩] }
    let bank : Output := {
      envVars := [⟨"KEY", "", true, some " ", false⟩]
      dependencies := [⟨"axios", "1.3.0", false⟩] }
    (match ofContributions [⟨"n", "shop", shop⟩, ⟨"m", "desk", desk⟩, ⟨"k", "bank", bank⟩] true with
      | .ok _ => none
      | .error f => some (f.kind, f.diagnostics.map fun d => (d.path, d.field, d.pluginIds))) =
    some (.collision "b.md" ["desk", "shop"] ["m", "n"],
      [(some "b.md", none, ["desk", "shop"]), (none, some "KEY", ["desk", "shop"]),
        (none, some "axios", ["bank", "shop"])]) := by
  decide +kernel

/-! ## Pairs -/

theorem disputed_iff_pair {topic : Topic} {key : String} : Disputed cs docs topic key ↔
    ∃ c ∈ cs, ∃ d ∈ cs, Disputed [c, d] docs topic key := by
  constructor
  · rintro ⟨c, hc, d, hd, h⟩
    exact ⟨c, hc, d, hd, c, by simp, d, by simp, h⟩
  · rintro ⟨c, hc, d, hd, c', hc', d', hd', h⟩
    have hpair : ∀ e ∈ [c, d], e ∈ cs := by simp [hc, hd]
    exact ⟨c', hpair c' hc', d', hpair d' hd', h⟩

/-- Contributions can be merged if every two of them can. -/
theorem exists_ofContributions_iff_pairs (cs : List Contribution) (docs : Bool) :
    (∃ t, ofContributions cs docs = .ok t) ↔
      ∀ c ∈ cs, ∀ d ∈ cs, ∃ t, ofContributions [c, d] docs = .ok t := by
  simp only [exists_ofContributions_iff]
  constructor
  · intro h c hc d hd topic key hpair
    exact h topic key (disputed_iff_pair.mpr ⟨c, hc, d, hd, hpair⟩)
  · intro h topic key hdisputed
    obtain ⟨c, hc, d, hd, hpair⟩ := disputed_iff_pair.mp hdisputed
    exact h c hc d hd topic key hpair

end ProjectTree
end ProjectComposer
