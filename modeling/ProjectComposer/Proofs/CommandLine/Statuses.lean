import ProjectComposer.CommandLine.Program
import ProjectComposer.Proofs.Compilation.Nesting
import ProjectComposer.Proofs.Compilation.Settled
import ProjectComposer.Proofs.Json.ReadBack
import ProjectComposer.Proofs.Wire.Bounded

/-!
How the program ends once its arguments are understood. A file that is missing or holds no blueprint
gives status 2, a blueprint with a fault status 1 and a document of the fault, any other one status
0 and a document of the result. The program breaks off in two cases alone: the path cannot be read
though something is there, or a negative number of workers is asked for an accepted blueprint.
-/
namespace ProjectComposer
set_option autoImplicit false
open Wire

/-! ## Documents of faults -/

theorem Diagnostic.exact_toJson (d : Diagnostic) : Json.Exact d.toJson := by
  have hfields : d.toJson = .object [
      ("level", .text (Named.name d.level)), ("code", .text d.code), ("message", .text d.message),
      ("nodeId", Json.optional .text d.nodeId), ("field", Json.optional .text d.field),
      ("path", Json.optional .text d.path), ("pluginIds", Json.texts d.pluginIds)] :=
    rfl
  rw [hfields]
  refine .object (by simp [Table.keys]) ?_
  simp only [List.forall_mem_cons]
  refine ⟨.text _, .text _, .text _, Json.exact_optional_text _, Json.exact_optional_text _,
    Json.exact_optional_text _, Json.exact_texts _, ?_⟩
  simp

/-- The document that shows a fault: its code and its diagnostics. -/
def Fault.toJson (f : Fault) : Json :=
  .object [("code", .text f.code), ("diagnostics", .list (f.diagnostics.map Diagnostic.toJson))]

theorem Fault.exact_toJson (f : Fault) : Json.Exact f.toJson := by
  refine .object (by simp [Table.keys]) ?_
  simp only [List.forall_mem_cons]
  refine ⟨.text _, .list fun v hv => ?_, by simp⟩
  obtain ⟨d, -, rfl⟩ := List.mem_map.mp hv
  exact d.exact_toJson

namespace CommandLine

theorem parse?_document {v : Json} (h : v.Exact) : Json.parse? (document v) = some v :=
  Json.parse?_indented h "\n" (by decide)

/-! ## Tasks -/

/-- What a request does with the blueprint of a file. -/
inductive Task
  | validate
  | compile (manifest : Bool) (workers : Option Int)

/-- The file that a request reads, and what it does with it. -/
def Request.task? : Request → Option (String × Task)
  | .plugins => none
  | .validate file => some (file, .validate)
  | .compile file manifest workers => some (file, .compile manifest workers)

namespace Task

/-- The document that a task ends with, or why there is none. -/
def result : Task → Blueprint → Except Failure Json
  | .validate, b => (b.accept .builtIn).map fun a =>
    .object [("valid", .bool true), ("layers", .list (a.plan.layers.map Json.texts))]
  | .compile manifest workers, b => (b.compile .builtIn {} workers).2.map fun c =>
    if manifest then c.tree.manifestJson else c.tree.toJson

/-- The blueprint is accepted, and no number of workers below zero can run it. -/
def Overdraws : Task → Blueprint → Prop
  | .validate, _ => False
  | .compile _ workers, b => (∃ a, b.accept .builtIn = .ok a) ∧ ∃ n, workers = some n ∧ n < 0

theorem result_of_overdraws {t : Task} {b : Blueprint} (h : t.Overdraws b) :
    t.result b = .error .workers := by
  cases t with
  | validate => exact h.elim
  | compile manifest workers =>
    obtain ⟨⟨a, haccept⟩, n, rfl, hn⟩ := h
    have hworkers : Job.workers (some n) < 0 := by
      rw [Job.workers, if_neg (by omega)]
      exact hn
    rw [result, Blueprint.compile_of_accept haccept, Job.run_of_neg hworkers]
    rfl

theorem tells_builtIn : Registry.builtIn.orBuiltIn.Tells :=
  fun _ hp => BuiltIn.isTold (Registry.mem_orBuiltIn (fun _ => Registry.mem_builtIn) hp)

/-- A task that does not overdraw fails by a fault with diagnostics, or for an overview that cannot
be written. -/
theorem result_eq_error {t : Task} {b : Blueprint} {e : Failure} (h : ¬t.Overdraws b)
    (he : t.result b = .error e) :
    e.IsReported ∨ e = .raised .overlong ∧ ¬b.resolvedSettings.WritesOverview := by
  cases t with
  | validate => exact .inl (Blueprint.onlyReported_validated b _ e (map_eq_error.mp he))
  | compile manifest workers =>
    have hcompile := map_eq_error.mp he
    by_cases hworkers : ∃ n, workers = some n ∧ n < 0
    · -- A blueprint that validation accepts would overdraw.
      cases haccept : b.accept .builtIn with
      | ok a => exact absurd ⟨⟨a, haccept⟩, hworkers⟩ h
      | error f =>
        exact .inl (Blueprint.onlyReported_compile_of_refused haccept _ _ e hcompile)
    · refine Blueprint.compile_eq_error (fun n hn => ?_) tells_builtIn hcompile
      exact not_lt.mp fun hneg => hworkers ⟨n, hn, hneg⟩

theorem diagnostics_of_fault {t : Task} {b : Blueprint} {f : Fault}
    (h : t.result b = .error (.fault f)) : f.diagnostics ≠ [] := by
  have hcalm : ¬t.Overdraws b := by
    intro hoverdraws
    rw [t.result_of_overdraws hoverdraws] at h
    cases h
  rcases t.result_eq_error hcalm h with ⟨f', hsame, hdiagnostics⟩ | ⟨hraised, -⟩
  · cases hsame
    exact hdiagnostics
  · cases hraised

end Task

/-! ## Endings -/

/-- How a task ends the program. -/
def ending : Except Failure Json → Outcome
  | .ok v => .finished ⟨0, document v, ""⟩
  | .error (.fault f) => report f
  | .error f => .failed f

theorem perform_of_task {q : Request} {file : String} {t : Task} (h : q.task? = some (file, t))
    (read : String → Reading) :
    perform read q = withBlueprint file read fun b => ending (t.result b) := by
  cases q with
  | plugins => cases h
  | validate file =>
    cases h
    refine congrArg (withBlueprint file read) (funext fun b => ?_)
    unfold validate Task.result
    dsimp only
    cases b.accept .builtIn with
    | ok a => rfl
    | error e => cases e <;> rfl
  | compile file manifest workers =>
    cases h
    refine congrArg (withBlueprint file read) (funext fun b => ?_)
    unfold compile Task.result
    dsimp only
    cases (b.compile .builtIn {} workers).2 with
    | ok c => rfl
    | error e => cases e <;> rfl

/-- The program returns a status with this text on its output. -/
def Outcome.Exits (o : Outcome) (status : Nat) (out : String) : Prop :=
  ∃ err, o = .finished ⟨status, out, err⟩

theorem exits_finished {f : Finished} {status : Nat} {out : String} :
    (Outcome.finished f).Exits status out ↔ status = f.status ∧ out = f.out := by
  constructor
  · rintro ⟨err, hf⟩
    cases hf
    exact ⟨rfl, rfl⟩
  · rintro ⟨rfl, rfl⟩
    exact ⟨f.err, rfl⟩

theorem exits_ending {x : Except Failure Json} {status : Nat} {out : String} :
    (ending x).Exits status out ↔
      (status = 0 ∧ ∃ v, x = .ok v ∧ out = document v) ∨
        status = 1 ∧ ∃ f, x = .error (.fault f) ∧ out = document f.toJson := by
  cases x with
  | ok v => simp [ending, exits_finished]
  | error e =>
    cases e with
    | fault f =>
      change (report f).Exits status out ↔ _
      simp [report, exits_finished, Fault.toJson]
    | lookup | workers | raised | unending => simp [ending, Outcome.Exits]

/-- A task on a blueprint that can be written exits unless it overdraws. -/
theorem exits_ending_iff {t : Task} {b : Blueprint} (hwritable : b.resolvedSettings.isWritable) :
    (∃ status out, (ending (t.result b)).Exits status out) ↔ ¬t.Overdraws b := by
  constructor
  · rintro ⟨status, out, hexits⟩ hoverdraws
    rw [exits_ending, t.result_of_overdraws hoverdraws] at hexits
    simp at hexits
  · intro h
    have hreported : OnlyReported (t.result b) := fun e he =>
      (t.result_eq_error h he).resolve_right fun hoverlong => hoverlong.2 fun _ => hwritable
    rcases hreported.ok_or_fault with ⟨v, hv⟩ | ⟨f, hf, -⟩
    · exact ⟨0, document v, exits_ending.mpr (.inl ⟨rfl, v, hv, rfl⟩)⟩
    · exact ⟨1, document f.toJson, exits_ending.mpr (.inr ⟨rfl, f, hf, rfl⟩)⟩

/-! ## Files -/

section Files
variable {read : String → Reading} {file : String} {b : Blueprint} {next : Blueprint → Outcome}

/-- Nothing is at the path, or the file there holds no blueprint. -/
def Lacks (read : String → Reading) (file : String) : Prop :=
  read (cleanPath file) = .missing ∨
    ∃ s r, read (cleanPath file) = .text s ∧ Blueprint.ofDocument s = .error r

/-- The file at the path holds a blueprint. -/
def Holds (read : String → Reading) (file : String) (b : Blueprint) : Prop :=
  ∃ s, read (cleanPath file) = .text s ∧ Blueprint.ofDocument s = .ok b

/-- The path cannot be read, for another reason than that nothing is there. -/
def Blocks (read : String → Reading) (file : String) : Prop :=
  ∃ o, read (cleanPath file) = .broken o

theorem withBlueprint_of_lacks (h : Lacks read file) :
    ∃ err, withBlueprint file read next = .finished ⟨2, "", err⟩ := by
  unfold withBlueprint
  dsimp only
  rcases h with hmissing | ⟨s, r, hs, hr⟩
  · rw [hmissing]
    exact ⟨_, rfl⟩
  · rw [hs]
    dsimp only
    rw [hr]
    exact ⟨_, rfl⟩

theorem withBlueprint_of_holds (h : Holds read file b) :
    withBlueprint file read next = next b := by
  obtain ⟨s, hs, hb⟩ := h
  unfold withBlueprint
  dsimp only
  rw [hs]
  dsimp only
  rw [hb]

theorem withBlueprint_of_blocks (h : Blocks read file) :
    ∃ o, withBlueprint file read next = .broken o (cleanPath file) := by
  obtain ⟨o, ho⟩ := h
  unfold withBlueprint
  dsimp only
  rw [ho]
  exact ⟨o, rfl⟩

theorem lacks_or_holds_or_blocks (read : String → Reading) (file : String) :
    Lacks read file ∨ (∃ b, Holds read file b) ∨ Blocks read file := by
  cases hreading : read (cleanPath file) with
  | missing => exact .inl (.inl hreading)
  | broken o => exact .inr (.inr ⟨o, hreading⟩)
  | text s =>
    cases hdocument : Blueprint.ofDocument s with
    | error r => exact .inl (.inr ⟨s, r, hreading, hdocument⟩)
    | ok b => exact .inr (.inl ⟨b, s, hreading, hdocument⟩)

theorem Holds.unique {b' : Blueprint} (h : Holds read file b) (h' : Holds read file b') :
    b = b' := by
  obtain ⟨s, hs, hb⟩ := h
  obtain ⟨s', hs', hb'⟩ := h'
  obtain rfl : s = s' := Reading.text.inj (hs.symm.trans hs')
  exact Except.ok.inj (hb.symm.trans hb')

/-- What is read from a file can be written. -/
theorem Holds.isWritable (h : Holds read file b) : b.resolvedSettings.isWritable := by
  obtain ⟨s, -, hb⟩ := h
  exact Blueprint.isWritable_of_document hb

theorem Holds.not_lacks (h : Holds read file b) : ¬Lacks read file := by
  obtain ⟨s, hs, hb⟩ := h
  rintro (hmissing | ⟨s', r, hs', hr⟩)
  · cases hmissing.symm.trans hs
  · obtain rfl : s = s' := Reading.text.inj (hs.symm.trans hs')
    cases hr.symm.trans hb

theorem Holds.not_blocks (h : Holds read file b) : ¬Blocks read file := by
  rintro ⟨o, ho⟩
  obtain ⟨s, hs, -⟩ := h
  cases ho.symm.trans hs

theorem Lacks.not_blocks (h : Lacks read file) : ¬Blocks read file := by
  rintro ⟨o, ho⟩
  rcases h with hmissing | ⟨s, r, hs, -⟩
  · cases ho.symm.trans hmissing
  · cases ho.symm.trans hs

end Files

/-! ## Runs -/

/-- Which statuses a task on a file leads to, and with which output. -/
structure Settled (t : Task) (read : String → Reading) (file : String) (o : Outcome) : Prop where
  lacking : ∀ out, o.Exits 2 out ↔ Lacks read file ∧ out = ""
  faulty : ∀ out, o.Exits 1 out ↔ ∃ b f, Holds read file b ∧
    t.result b = .error (.fault f) ∧ out = document f.toJson
  done : ∀ out, o.Exits 0 out ↔ ∃ b v, Holds read file b ∧ t.result b = .ok v ∧ out = document v
  status_le : ∀ status out, o.Exits status out → status ≤ 2
  exits : (∃ status out, o.Exits status out) ↔
    ¬Blocks read file ∧ ∀ b, Holds read file b → ¬t.Overdraws b

theorem settled_withBlueprint (t : Task) (read : String → Reading) (file : String) :
    Settled t read file (withBlueprint file read fun b => ending (t.result b)) := by
  -- What is read at the path decides on all statuses at once.
  rcases lacks_or_holds_or_blocks read file with hlacks | ⟨b, hb⟩ | hblocks
  · obtain ⟨err, hended⟩ := withBlueprint_of_lacks hlacks
    have hnone (b : Blueprint) : ¬Holds read file b := fun hb => hb.not_lacks hlacks
    rw [hended]
    constructor <;> simp [exits_finished, hlacks, hnone, hlacks.not_blocks]
  · rw [withBlueprint_of_holds hb]
    have hself (b' : Blueprint) : Holds read file b' ↔ b' = b :=
      ⟨fun hb' => hb'.unique hb, fun h => h ▸ hb⟩
    constructor
    case lacking => simp [exits_ending, hb.not_lacks]
    case faulty => simp [exits_ending, hself]
    case done => simp [exits_ending, hself]
    case status_le =>
      intro status out hexits
      rcases exits_ending.mp hexits with ⟨rfl, -⟩ | ⟨rfl, -⟩
      · exact Nat.zero_le 2
      · exact Nat.le_succ 1
    case exits =>
      simp only [hself, forall_eq, hb.not_blocks, not_false_eq_true, true_and]
      exact exits_ending_iff hb.isWritable
  · obtain ⟨o, hended⟩ := withBlueprint_of_blocks hblocks
    rw [hended]
    have hnone (b : Blueprint) : ¬Holds read file b := fun hb => hb.not_blocks hblocks
    have hthere : ¬Lacks read file := fun hlacks => hlacks.not_blocks hblocks
    constructor <;> simp [Outcome.Exits, hnone, hthere, hblocks]

/-- The program returns 0, 1 or 2 on any arguments that it understands, unless the path cannot be
read though something is there or an accepted blueprint is to run with a negative number of workers.
It returns 2 exactly if the file is missing or holds no blueprint, else 1 exactly if there is a
fault, with its document on the output, and else 0 with the document of the result. A document of a
fault reads back to its code and its diagnostics, of which there are some. -/
theorem run_settled {args : List String} {q : Request} (h : CommandLine.read args = .ok q)
    (read : String → Reading) :
    (q.task? = none → run args read =
      .finished ⟨0, Text.lines (Registry.builtIn.plugins.map pluginLine), ""⟩) ∧
    ∀ file t, q.task? = some (file, t) → Settled t read file (run args read) ∧
      ∀ b f, t.result b = .error (.fault f) →
        f.diagnostics ≠ [] ∧ Json.parse? (document f.toJson) = some f.toJson := by
  have hrun : run args read = perform read q := by
    rw [run, h]
  rw [hrun]
  refine ⟨fun hplugins => ?_, fun file t htask => ⟨?_, fun b f hf => ⟨?_, ?_⟩⟩⟩
  · cases q with
    | plugins => rfl
    | validate file => cases hplugins
    | compile file manifest workers => cases hplugins
  · rw [perform_of_task htask]
    exact settled_withBlueprint t read file
  · exact t.diagnostics_of_fault hf
  · exact parse?_document f.exact_toJson

/-- A home with one file. -/
def singleFile (name text : String) : FileSystem where
  home := ["home"]
  files := [(["home", name], text)]

def compileArgs : List String :=
  ["compile", "b.json", "--max-workers=-1"]

theorem read_compileArgs :
    CommandLine.read compileArgs = .ok (.compile "b.json" false (some (-1))) := by
  decide +kernel

/-- A blueprint without nodes is at fault, whatever the number of workers. -/
theorem run_settled_withoutNodes :
    let text := "\x7b\"id\": \"b\", \"nodes\": []\x7d"
    let read := (singleFile "b.json" text).read
    CommandLine.read compileArgs = .ok (.compile "b.json" false (some (-1))) ∧
      (∃ out, (run compileArgs read).Exits 1 out) ∧ ∀ out, ¬(run compileArgs read).Exits 2 out := by
  intro text read
  obtain ⟨-, hsettled⟩ := run_settled read_compileArgs read
  obtain ⟨hsettled, -⟩ := hsettled "b.json" (.compile false (some (-1))) rfl
  have hread : read (cleanPath "b.json") = .text text := by decide +kernel
  have hrefused : (Blueprint.ofDocument text).toOption.map
      (fun b => (b.accept .builtIn).toOption.isNone) = some true := by
    decide +kernel
  obtain ⟨b, hb, hrefused⟩ := Option.map_eq_some_iff.mp hrefused
  have hholds : Holds read "b.json" b := ⟨text, hread, toOption_eq_some.mp hb⟩
  cases haccept : b.accept .builtIn with
  | ok a =>
    rw [haccept] at hrefused
    cases hrefused
  | error e =>
    obtain ⟨f, rfl, -⟩ := Blueprint.onlyReported_validated b _ e haccept
    have hresult : Task.result (.compile false (some (-1))) b = .error (.fault f) := by
      rw [Task.result, Blueprint.compile_of_refused haccept]
      rfl
    refine ⟨read_compileArgs, ⟨_, (hsettled.faulty _).mpr ⟨b, f, hholds, hresult, rfl⟩⟩, ?_⟩
    exact fun out hexits => hholds.not_lacks ((hsettled.lacking out).mp hexits).1

/-- With a negative number of workers an accepted blueprint leads to no status. -/
theorem run_negativeWorkers :
    let node := "\x7b\"id\": \"w\", \"type\": \"wallet-auth\"\x7d"
    let text := "\x7b\"id\": \"b\", \"nodes\": [" ++ node ++ "]\x7d"
    let read := (singleFile "b.json" text).read
    CommandLine.read compileArgs = .ok (.compile "b.json" false (some (-1))) ∧
      run compileArgs read = .failed .workers := by
  intro node text read
  have hread : read (cleanPath "b.json") = .text text := by decide +kernel
  have haccepted : (Blueprint.ofDocument text).toOption.map
      (fun b => (b.accept .builtIn).toOption.isSome) = some true := by
    decide +kernel
  obtain ⟨b, hb, haccepted⟩ := Option.map_eq_some_iff.mp haccepted
  obtain ⟨a, ha⟩ := Option.isSome_iff_exists.mp haccepted
  have hholds : Holds read "b.json" b := ⟨text, hread, toOption_eq_some.mp hb⟩
  have hoverdraws : Task.Overdraws (.compile false (some (-1))) b :=
    ⟨⟨a, toOption_eq_some.mp ha⟩, -1, rfl, by decide⟩
  refine ⟨read_compileArgs, ?_⟩
  rw [run, read_compileArgs]
  dsimp only
  rw [perform_of_task rfl, withBlueprint_of_holds hholds, Task.result_of_overdraws hoverdraws]
  rfl

end CommandLine
end ProjectComposer
