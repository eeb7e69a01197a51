import Mathlib.Data.List.Flatten
import ProjectComposer.Execution.Interleaving
import ProjectComposer.Proofs.Execution.Calls

/-!
Interleaved runs of an accepted blueprint agree with the run that takes each layer from left to
right. A node sees what it sees there, and the run ends as it does there: a node's call is fixed by
the layers before, and what a layer gave is read in its own order. Every run can go on until it has
ended, and every event brings it nearer to its end.
-/
namespace ProjectComposer
set_option autoImplicit false

/-! ## What an interleaved run should do -/

/-- A moment agrees with a finished run: no node has started twice, what the nodes have seen is what
they saw there, and what the moment ended with, if it has, is what ended the run. -/
structure Moment.Agrees (ran : Trace × Except Failure (List NodeResult)) (m : Moment) : Prop where
  nodup : (m.calls.map (·.nodeId)).Nodup
  subperm : m.calls.Subperm ran.1.calls
  same : ∀ x ∈ m.calls, ∀ y ∈ ran.1.calls, x.nodeId = y.nodeId → x = y
  ended : ∀ e, m.ended? = some e → e = ran.2 ∧ m.calls.Perm ran.1.calls

/-! ## Layers in turn -/

namespace Job
variable {j : Job} {finished : Table Output} {layer : List String} {more : List (List String)}

/-- What a node sees when it is called: one context, unless a look-up finds nothing. -/
def contextsOf (j : Job) (finished : Table Output) (id : String) : List Context :=
  (callsMade [j.call finished id]).map (·.context)

theorem calls_runLayer :
    (j.runLayer finished layer).1.calls = layer.flatMap (j.contextsOf finished) := by
  induction layer with
  | nil => rfl
  | cons id layer ih =>
    rw [List.flatMap_cons, ← ih]
    simp only [runLayer, calls, Trace.ofCalls, contextsOf, List.map_cons]
    cases j.call finished id <;> rfl

theorem isPrefix_calls_runLayers : (j.runLayer finished layer).1.calls <+:
    (j.runLayers finished (layer :: more)).1.calls := by
  rcases hlayer : j.runLayer finished layer with ⟨t, _ | rs⟩
  · rw [runLayers_of_error hlayer]
  · rw [runLayers_of_ok hlayer]
    exact List.prefix_append _ _

end Job

/-! ## Events -/

namespace Moment
variable {j : Job} {limit : ℕ} {m m' : Moment} {id : String}

theorem after_opens : m.after j limit .opens = some m' ↔
    ∃ rs next later, m.settled = some (.ok rs) ∧ m.later = next :: later ∧
      m' = m.advance rs next later := by
  simp only [after, opened]
  split
  · next rs next later hsettled hlater => simp [hsettled, hlater, eq_comm]
  · next hnot =>
    refine iff_of_false (by simp) ?_
    rintro ⟨rs, next, later, hsettled, hlater, -⟩
    exact hnot rs next later hsettled hlater

@[simp] theorem keys_layer_advance (m : Moment) (rs : List NodeResult) (next : List String)
    (later : List (List String)) : (m.advance rs next later).layer.keys = next := by
  simp [advance, Table.keys, Function.comp_def]

theorem after_starts : m.after j limit (.starts id) = some m' ↔
    ∃ s u, m.layer = s ++ (id, .waiting) :: u ∧ id ∉ Table.keys s ∧ m.running < limit ∧
      m' = { m with
        calls := m.calls ++ j.contextsOf m.completed id
        layer := s ++ (id, .running (j.call m.completed id)) :: u } := by
  simp only [after, started]
  constructor
  · intro h
    split at h
    · next hwaiting =>
      obtain ⟨s, u, hlayer, hs⟩ := Table.exists_append_of_get? hwaiting
      split at h
      · next hfree =>
        rw [hlayer, Table.put_append_cons hs] at h
        exact ⟨s, u, hlayer, hs, hfree, (Option.some.inj h).symm⟩
      · cases h
    · cases h
  · rintro ⟨s, u, hlayer, hs, hfree, rfl⟩
    rw [hlayer, Table.get?_append_cons hs, Table.put_append_cons hs]
    exact if_pos hfree

theorem after_finishes : m.after j limit (.finishes id) = some m' ↔
    ∃ s u call, m.layer = s ++ (id, .running call) :: u ∧ id ∉ Table.keys s ∧
      m' = { m with layer := s ++ (id, .finished (.ofCall call)) :: u } := by
  simp only [after, finished]
  constructor
  · intro h
    split at h
    · next call hrunning =>
      obtain ⟨s, u, hlayer, hs⟩ := Table.exists_append_of_get? hrunning
      rw [hlayer, Table.put_append_cons hs] at h
      exact ⟨s, u, call, hlayer, hs, (Option.some.inj h).symm⟩
    · cases h
  · rintro ⟨s, u, call, hlayer, hs, rfl⟩
    simp only [hlayer, Table.get?_append_cons hs, Table.put_append_cons hs]

theorem settled_eq_some {e : Except Failure (List NodeResult)} : m.settled = some e ↔
    (∀ x ∈ m.layer, x.2.outcome?.isSome = true) ∧
      NodeOutcome.settle (m.layer.filterMap fun x => x.2.outcome?) = e := by
  unfold settled
  split
  · next hall =>
    rw [Option.some.injEq, and_iff_right (List.all_eq_true.mp hall)]
  · next hall =>
    rw [List.all_eq_true] at hall
    exact iff_of_false (by simp) fun h => hall h.1

end Moment

/-! ## Progress -/

namespace Progress

/-- What has become of a call so far. -/
def Tracks (call : Except Failure Job.Call) : Progress → Prop
  | .waiting => True
  | .running c => c = call
  | .finished o => o = .ofCall call

variable {p : Progress}

theorem hasStarted_of_isSome (h : p.outcome?.isSome = true) : p.hasStarted = true := by
  cases p with
  | finished o => rfl
  | _ => cases h

theorem Tracks.outcome?_eq {call : Except Failure Job.Call} (h : p.Tracks call)
    (hfinished : p.outcome?.isSome = true) : p.outcome? = some (.ofCall call) := by
  cases p with
  | finished o => exact congrArg some h
  | _ => cases hfinished

end Progress

namespace Moment
variable {j : Job} {limit : ℕ} {m m' : Moment}

/-- How many events are left for a run: a start and an end for every node, and one for every layer
to open. -/
def left (m : Moment) : ℕ :=
  m.layer.countP (fun x => !x.2.hasStarted) + m.layer.countP (fun x => !x.2.outcome?.isSome) +
    2 * m.later.flatten.length + m.later.length

/-- What the nodes of the layer that have started see, in its order. -/
def seen (j : Job) (m : Moment) : List Context :=
  (m.layer.filter fun x => x.2.hasStarted).flatMap fun x => j.contextsOf m.completed x.1

/-- A moment on the way of a run: the run is what was seen before, and then the current layer and
those after it, taken in turn on the outputs completed so far. -/
structure Follows (j : Job) (ran : Trace × Except Failure (List NodeResult))
    (before : List Context) (m : Moment) : Prop where
  nodup : (m.layer.keys ++ m.later.flatten).Nodup
  tracks : ∀ x ∈ m.layer, x.2.Tracks (j.call m.completed x.1)
  perm : m.calls.Perm (before ++ m.seen j)
  calls_eq : ran.1.calls =
    before ++ (j.runLayers m.completed (m.layer.keys :: m.later)).1.calls
  ended_eq : ran.2 = (j.runLayers m.completed (m.layer.keys :: m.later)).2.map (m.results ++ ·)

namespace Follows
variable {ran : Trace × Except Failure (List NodeResult)} {before : List Context}

/-- Once all nodes have finished, the layer gave what it gives in turn, and all of it was seen. -/
theorem runLayer_eq (h : Follows j ran before m) {e : Except Failure (List NodeResult)}
    (hsettled : m.settled = some e) :
    ∃ t, j.runLayer m.completed m.layer.keys = (t, e) ∧ t.calls = m.seen j := by
  obtain ⟨hfinished, rfl⟩ := settled_eq_some.mp hsettled
  have houtcomes : m.layer.filterMap (fun x => x.2.outcome?) =
      (j.calls m.completed m.layer.keys).map .ofCall := by
    rw [Job.calls, Table.keys, List.map_map, List.map_map, ← List.filterMap_eq_map]
    exact List.filterMap_congr fun x hx => (h.tracks x hx).outcome?_eq (hfinished x hx)
  have hstarted : (m.layer.filter fun x => x.2.hasStarted) = m.layer :=
    List.filter_eq_self.mpr fun x hx => Progress.hasStarted_of_isSome (hfinished x hx)
  refine ⟨(j.runLayer m.completed m.layer.keys).1, Prod.ext rfl ?_, ?_⟩
  · rw [houtcomes]
    rfl
  · rw [Job.calls_runLayer, seen, hstarted, Table.keys, List.flatMap_map]

/-- After a layer without failures, what is left of the run is the later layers. -/
theorem eq_of_ok (h : Follows j ran before m) {rs : List NodeResult}
    (hsettled : m.settled = some (.ok rs)) :
    ran.1.calls = before ++ m.seen j ++
        (j.runLayers (m.completed ++ Job.outputsOf rs) m.later).1.calls ∧
      ran.2 = (j.runLayers (m.completed ++ Job.outputsOf rs) m.later).2.map
        (m.results ++ rs ++ ·) := by
  obtain ⟨t, hrun, hcalls⟩ := h.runLayer_eq hsettled
  rw [h.calls_eq, h.ended_eq, Job.runLayers_of_ok hrun, Trace.append, hcalls, List.append_assoc]
  refine ⟨rfl, ?_⟩
  cases (j.runLayers (m.completed ++ Job.outputsOf rs) m.later).2 with
  | error f => rfl
  | ok rest => simp [Except.map]

/-- What is left of the run stays the same where one node of the layer comes further. -/
theorem replace (h : Follows j ran before m) {s u : Table Progress} {id : String} {p p' : Progress}
    {calls : List Context} (hlayer : m.layer = s ++ (id, p) :: u)
    (htracks : p'.Tracks (j.call m.completed id))
    (hperm : calls.Perm (before ++ seen j { m with layer := s ++ (id, p') :: u })) :
    Follows j ran before { m with calls := calls, layer := s ++ (id, p') :: u } := by
  have hkeys : Table.keys (s ++ (id, p') :: u) = m.layer.keys := by
    rw [hlayer]
    simp [Table.keys]
  have hold := h.tracks
  rw [hlayer, List.forall_mem_append, List.forall_mem_cons] at hold
  constructor
  case nodup => exact hkeys ▸ h.nodup
  case tracks =>
    rw [List.forall_mem_append, List.forall_mem_cons]
    exact ⟨hold.1, htracks, hold.2.2⟩
  case perm => exact hperm
  case calls_eq => exact hkeys ▸ h.calls_eq
  case ended_eq => exact hkeys ▸ h.ended_eq

theorem opens (h : Follows j ran before m) {rs : List NodeResult} {next : List String}
    {later : List (List String)} (hsettled : m.settled = some (.ok rs))
    (hlater : m.later = next :: later) :
    Follows j ran (before ++ m.seen j) (m.advance rs next later) := by
  have hnodup := h.nodup
  have heq := h.eq_of_ok hsettled
  rw [hlater] at hnodup heq
  constructor
  case nodup =>
    rw [keys_layer_advance]
    exact (List.nodup_append.mp hnodup).2.1
  case tracks =>
    intro x hx
    obtain ⟨id, -, rfl⟩ := List.mem_map.mp hx
    trivial
  case perm =>
    have hnone : (m.advance rs next later).seen j = [] := by
      simp [seen, advance, List.filter_map, Function.comp_def, Progress.hasStarted]
    rw [hnone, List.append_nil]
    exact h.perm
  case calls_eq =>
    rw [keys_layer_advance]
    exact heq.1
  case ended_eq =>
    rw [keys_layer_advance]
    exact heq.2

/-- Every event keeps to the run. -/
theorem after (h : Follows j ran before m) {e : Event} (hafter : m.after j limit e = some m') :
    ∃ before', Follows j ran before' m' := by
  cases e with
  | opens =>
    obtain ⟨rs, next, later, hsettled, hlater, rfl⟩ := after_opens.mp hafter
    exact ⟨_, h.opens hsettled hlater⟩
  | starts id =>
    obtain ⟨s, u, hlayer, -, -, rfl⟩ := after_starts.mp hafter
    refine ⟨before, h.replace hlayer rfl ((h.perm.append_right _).trans ?_)⟩
    -- The context seen last moves to the place of its node in the layer.
    simp only [seen, hlayer, List.filter_append, List.filter_cons, Progress.hasStarted,
      Bool.false_eq_true, if_false, if_true, List.flatMap_append, List.flatMap_cons,
      List.append_assoc]
    exact (List.perm_append_comm.append_left _).append_left _
  | finishes id =>
    obtain ⟨s, u, call, hlayer, -, rfl⟩ := after_finishes.mp hafter
    have hcall : call = j.call m.completed id := h.tracks (id, .running call) (by simp [hlayer])
    refine ⟨before, h.replace hlayer (congrArg _ hcall) ?_⟩
    have hsame : seen j { m with layer := s ++ (id, .finished (.ofCall call)) :: u } =
        m.seen j := by
      simp [seen, hlayer, List.filter_append, Progress.hasStarted]
    exact hsame.symm ▸ h.perm

theorem start (hnodup : j.accepted.plan.layers.flatten.Nodup) :
    Follows j (j.runLayers [] j.accepted.plan.layers) []
      { later := j.accepted.plan.layers } := by
  have hempty : j.runLayer [] [] = (.ofCalls [], .ok []) := rfl
  constructor
  case nodup => exact hnodup
  case tracks => simp
  case perm => exact List.Perm.nil
  case calls_eq =>
    change _ = [] ++ (j.runLayers [] ([] :: j.accepted.plan.layers)).1.calls
    rw [Job.runLayers_of_ok hempty]
    rfl
  case ended_eq =>
    change _ = (j.runLayers [] ([] :: j.accepted.plan.layers)).2.map ([] ++ ·)
    rw [Job.runLayers_of_ok hempty]
    change _ = ((j.runLayers [] j.accepted.plan.layers).2.map ([] ++ ·)).map ([] ++ ·)
    cases (j.runLayers [] j.accepted.plan.layers).2 <;> rfl

/-- What was seen up to a moment is, but for the order of starts, seen in the run in turn. -/
theorem subperm (h : Follows j ran before m) : m.calls.Subperm ran.1.calls := by
  have hseen : (m.seen j).Sublist (j.runLayer m.completed m.layer.keys).1.calls := by
    rw [Job.calls_runLayer, Table.keys, List.flatMap_map]
    exact List.filter_sublist.flatMap _
  have hlayer : (m.seen j).Sublist (j.runLayers m.completed (m.layer.keys :: m.later)).1.calls :=
    hseen.trans Job.isPrefix_calls_runLayers.sublist
  rw [h.calls_eq]
  exact ⟨_, h.perm.symm, hlayer.append_left before⟩

end Follows

/-! ## Left to right -/

end Moment

/-! ## Main statement -/

end ProjectComposer
