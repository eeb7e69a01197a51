import ProjectComposer.Proofs.Graph.Queue

/-!
Cycles among candidates. The starts are tried in turn, with the queue as in rounds: both keep the
same best cycle, which an empty list stands for as long as there is none. A cycle once found is only
replaced by another one, and where no start has a loop through candidates alone there is no cycle
among them. Candidates may be listed in any order and more than once, and arcs may lead from a node
to itself.
-/
namespace ProjectComposer.Graph
set_option autoImplicit false

/-! ## All starts -/

/-- What the starts tried tell: a cycle among the candidates, or that no loop begins at them. -/
def Finds (g : Graph) (candidates tried : List String) : Option (List String) → Prop
  | some c => IsCycle g.Arc c ∧ c ⊆ candidates
  | none => ∀ s ∈ tried, ∀ d, ¬LoopFrom g.Arc candidates s d

section Starts
variable {g : Graph} {candidates tried more : List String} {best new : Option (List String)}

theorem Finds.next {s : String} (h : Finds g candidates tried best)
    (hnew : Settles g candidates s new) : Finds g candidates (tried ++ [s]) (shorter best new) := by
  cases best with
  | none =>
    cases new with
    | none =>
      intro t ht
      rcases List.mem_append.mp ht with ht | ht
      · exact h t ht
      · rw [List.mem_singleton.mp ht]
        exact hnew
    | some c => exact ⟨hnew.isCycle, hnew.loopFrom.subset⟩
  | some b =>
    cases new with
    | none => exact h
    | some c =>
      unfold shorter
      dsimp only
      split
      · exact ⟨hnew.isCycle, hnew.loopFrom.subset⟩
      · exact h

theorem Finds.ne_nil (h : Finds g candidates tried best) : ∀ c ∈ best, c ≠ [] := by
  rintro c rfl
  exact h.1.2.1

/-- Cycles are not empty, so an empty list can stand for none. -/
theorem getD_shorter (hbest : ∀ c ∈ best, c ≠ []) (new : Option (List String)) :
    (shorter best new).getD [] = improved (best.getD []) new := by
  cases best with
  | none => cases new <;> rfl
  | some b =>
    cases new with
    | none => rfl
    | some c =>
      have hb : b ≠ [] := hbest b rfl
      by_cases hlt : c.length < b.length
      · simp [shorter, improved, hlt]
      · simp [shorter, improved, hlt, hb]

theorem any_length_iff (best : Option (List String)) :
    (best.any fun c => c.length = 2) = true ↔ (best.getD []).length = 2 := by
  cases best <;> simp

theorem bestByQueue_cons {s : String} (hbest : ∀ c ∈ best, c ≠ [])
    (hfind : closeByQueue (g.targets candidates) s (.start s) = pure new) :
    bestByQueue (g.targets candidates) (s :: more) (best.getD []) =
      if ((shorter best new).getD []).length = 2 then pure ((shorter best new).getD [])
      else bestByQueue (g.targets candidates) more ((shorter best new).getD []) := by
  rw [bestByQueue, hfind, pure_bind, getD_shorter hbest]

/-- Trying starts comes to an end with the queue as in rounds, and to the same cycle. -/
theorem exists_bestByQueue (hg : g.WellFormed) (hin : more ⊆ candidates)
    (hsub : candidates ⊆ g.nodes) (h : Finds g candidates tried best) :
    ∃ best', g.bestCycle candidates more best = .ok best' ∧
      bestByQueue (g.targets candidates) more (best.getD []) = pure (best'.getD []) ∧
      Finds g candidates (tried ++ more) best' := by
  induction more generalizing tried best with
  | nil => exact ⟨best, rfl, rfl, by rwa [List.append_nil]⟩
  | cons s more ih =>
    obtain ⟨hs, hmore⟩ := List.cons_subset.mp hin
    obtain ⟨start, hvertex, rfl, hstart⟩ := exists_find?_eq_some (hsub hs)
    have hnext := h.next (settles_cycleThrough hg hvertex hs)
    rw [bestCycle, hstart, bestByQueue_cons h.ne_nil (closeByQueue_start hg hvertex hs)]
    dsimp only
    by_cases hshort : ((shorter best (g.cycleThrough? candidates start)).any
        fun c => c.length = 2) = true
    · rw [if_pos hshort, if_pos ((any_length_iff _).mp hshort)]
      refine ⟨_, rfl, rfl, ?_⟩
      obtain ⟨c, hc, -⟩ := (Option.any_eq_true _ _).mp hshort
      rw [hc] at hnext ⊢
      exact hnext
    · rw [if_neg hshort, if_neg (mt (any_length_iff _).mpr hshort)]
      have hassoc : tried ++ start.id :: more = tried ++ [start.id] ++ more := by simp
      rw [hassoc]
      exact ih hmore hnext

end Starts

/-! ## Results -/

/-- What a search for cycles among candidates comes to: a cycle, or the candidates where there is
none. -/
structure IsAnswer (arc : String → String → Prop) (candidates c : List String) : Prop where
  of_none : (¬∃ d, IsCycle arc d ∧ d ⊆ candidates) → c = candidates
  of_cycle : (∃ d, IsCycle arc d ∧ d ⊆ candidates) → IsCycle arc c ∧ c ⊆ candidates

theorem Finds.isAnswer {g : Graph} {candidates : List String} {best : Option (List String)}
    (h : Finds g candidates candidates best) :
    IsAnswer g.Arc candidates (best.getD candidates) := by
  cases best with
  | none =>
    refine ⟨fun _ => rfl, ?_⟩
    rintro ⟨d, hd, hsub⟩
    obtain ⟨s, rest, rfl⟩ := List.exists_cons_of_ne_nil hd.2.1
    exact absurd ⟨hd.2, rfl, hsub⟩ (h s (hsub List.mem_cons_self) _)
  | some c => exact ⟨fun hnone => absurd ⟨c, h⟩ hnone, fun _ => h⟩

theorem exists_shortestByQueue {g : Graph} (hg : g.WellFormed) {candidates : List String}
    (hsub : candidates ⊆ g.nodes) :
    ∃ c, g.shortestByQueue candidates = pure c ∧ g.shortestCycle candidates = .ok c ∧
      IsAnswer g.Arc candidates c := by
  have hstart : Finds g candidates [] none := fun s hs => absurd hs List.not_mem_nil
  obtain ⟨best, hrounds, hqueue, hfinds⟩ :=
    exists_bestByQueue hg (List.Subset.refl candidates) hsub hstart
  refine ⟨best.getD candidates, ?_, ?_, hfinds.isAnswer⟩
  · change bestByQueue (g.targets candidates) candidates [] = _ at hqueue
    rw [shortestByQueue, shortestAmong, hqueue, pure_bind]
    cases best with
    | none => rfl
    | some c => rw [Option.getD_some, if_neg (hfinds.ne_nil c rfl), Option.getD_some]
  · rw [shortestCycle, hrounds]
    rfl

/-- Among candidates from the nodes of a graph the search with a queue comes to an end, finds every
node and parent it looks up, and has the result of the search in rounds: the candidates where no
cycle runs through them alone, and else the nodes of such a cycle in order. -/
theorem shortestByQueue_settled {nodes : List String} {arcs : List (String × String)}
    (kinds : Table String) (hnodes : nodes.Nodup) (harcs : ∀ a ∈ arcs, a.1 ∈ nodes ∧ a.2 ∈ nodes)
    {candidates : List String} (hcandidates : candidates ⊆ nodes) :
    ∃ g c, (ofNodes nodes kinds).addArcs arcs = .ok g ∧
      (g.shortestByQueue candidates).run = Part.some (.ok c) ∧ g.shortestCycle candidates = .ok c ∧
      IsAnswer (fun u v => (u, v) ∈ arcs) candidates c := by
  obtain ⟨g, hadd, hg, rfl, hrel⟩ := exists_built kinds hnodes harcs
  obtain ⟨c, hqueue, hrounds, hanswer⟩ := exists_shortestByQueue hg hcandidates
  exact ⟨g, c, hadd, congrArg ExceptT.run hqueue, hrounds, hrel ▸ hanswer⟩

/-- Shorter cycles that leave the candidates are passed over, also a node with an arc to itself. -/
theorem shortestByQueue_settled_within :
    let nodes := ["a", "b", "c", "d"]
    let arcs := [("a", "b"), ("b", "c"), ("c", "a"), ("a", "d"), ("d", "a"), ("d", "d")]
    nodes.Nodup ∧ (∀ a ∈ arcs, a.1 ∈ nodes ∧ a.2 ∈ nodes) ∧ ["c", "a", "b", "c"] ⊆ nodes ∧
      ∃ g, (ofNodes nodes).addArcs arcs = .ok g ∧
        (g.shortestByQueue ["c", "a", "b", "c"]).run = Part.some (.ok ["c", "a", "b"]) ∧
        IsAnswer (fun u v => (u, v) ∈ arcs) ["c", "a", "b", "c"] ["c", "a", "b"] := by
  intro nodes arcs
  have hnodes : nodes.Nodup := by decide
  have harcs : ∀ a ∈ arcs, a.1 ∈ nodes ∧ a.2 ∈ nodes := by decide
  have hcandidates : ["c", "a", "b", "c"] ⊆ nodes := by decide
  refine ⟨hnodes, harcs, hcandidates, ?_⟩
  obtain ⟨g, c, hadd, hqueue, hrounds, hanswer⟩ :=
    shortestByQueue_settled [] hnodes harcs hcandidates
  have hbuilt : (ofNodes nodes).addArcs arcs =
      .ok ⟨[⟨"a", ["c", "d"]⟩, ⟨"b", ["a"]⟩, ⟨"c", ["b"]⟩, ⟨"d", ["a", "d"]⟩], []⟩ := by decide
  obtain rfl := Except.ok.inj (hadd.symm.trans hbuilt)
  have hsearch : shortestCycle
      ⟨[⟨"a", ["c", "d"]⟩, ⟨"b", ["a"]⟩, ⟨"c", ["b"]⟩, ⟨"d", ["a", "d"]⟩], []⟩
      ["c", "a", "b", "c"] = .ok ["c", "a", "b"] := by
    simp [shortestCycle, bestCycle, cycleThrough?, closeFrom, shorter, extendAll, Trail.nodes,
      Trail.extend, Vertex.follows, Vertex.distinct]
  obtain rfl := Except.ok.inj (hrounds.symm.trans hsearch)
  exact ⟨_, hadd, hqueue, hanswer⟩

end ProjectComposer.Graph
