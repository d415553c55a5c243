import Mathlib.Logic.Relation
import Mathlib.Data.List.Forall2

/-! # Step machines — runs, traces and the invariant rules

    A program whose tasks interleave is a machine: a set of start states and a
    step function that a LABEL drives.  The label says which task moves and
    what the environment answers, so that the step itself is a function and a
    run is a list of labels.  A step may also emit EVENTS; the events of a run,
    in order, are its trace.

    The file holds the rules that the developments below it use:

    * `Run.invariant` — what holds at the start and survives a step holds after
      every run; `Run.invariant_of_meets` is the same rule for the runs whose
      steps all meet a condition;
    * `always_iff_meets`, `always_iff_meets_within` — the exactness rules: where
      a property survives a step exactly when the step meets the condition, it
      holds all along a run exactly when all steps of the run meet the
      condition;
    * `Run.simulates` — an abstraction of state and trace that turns every step
      into abstract steps turns every run into an abstract run;
    * `Run.relates` — a relation to the states of another machine that every step
      keeps matches every run with one of the other machine;
    * `run_of_exec` — the executable run, by which a concrete schedule is
      evaluated. -/

namespace StepMachine

variable {St Lab Ev Abs : Type}

/-- A machine with labelled, event-emitting, partial steps.  `step s l = none`
    says that label `l` is not enabled at `s`. -/
structure Machine (St Lab Ev : Type) where
  start : St → Prop
  step  : St → Lab → Option (St × List Ev)

/-- `Run M s₀ ls s tr`: from `s₀` the labels `ls` lead to `s` and emit `tr`. -/
inductive Run (M : Machine St Lab Ev) (s₀ : St) :
    List Lab → St → List Ev → Prop where
  | nil : Run M s₀ [] s₀ []
  | snoc {ls : List Lab} {s : St} {tr : List Ev} {l : Lab} {s' : St}
      {es : List Ev} : Run M s₀ ls s tr → M.step s l = some (s', es) →
      Run M s₀ (ls ++ [l]) s' (tr ++ es)

/-- The states, with the trace that led there, of the runs from a start state. -/
def Reaches (M : Machine St Lab Ev) (s : St) (tr : List Ev) : Prop :=
  ∃ s₀ ls, M.start s₀ ∧ Run M s₀ ls s tr

/-- Every step of the run `ls` from `s₀` meets `ok`, a condition on the state
    before the step and its label. -/
def Meets (M : Machine St Lab Ev) (s₀ : St) (ok : St → Lab → Prop)
    (ls : List Lab) : Prop :=
  ∀ pre l post s tr, ls = pre ++ l :: post → Run M s₀ pre s tr → ok s l

/-- `good` holds in every state that the run `ls` from `s₀` passes through,
    its first and its last state included. -/
def Always (M : Machine St Lab Ev) (s₀ : St) (good : St → List Ev → Prop)
    (ls : List Lab) : Prop :=
  ∀ pre post s tr, ls = pre ++ post → Run M s₀ pre s tr → good s tr

/-! ## Runs -/

section Runs

variable {M : Machine St Lab Ev} {s₀ s s' : St} {ls : List Lab} {l : Lab}
  {tr es : List Ev}

theorem run_nil_inv (h : Run M s₀ [] s tr) : s = s₀ ∧ tr = [] := by
  generalize hls : ([] : List Lab) = ls at h
  cases h with
  | nil => exact ⟨rfl, rfl⟩
  | snoc _ _ => exact absurd hls.symm (List.append_ne_nil_of_right_ne_nil _ (by simp))

theorem run_snoc_inv (h : Run M s₀ (ls ++ [l]) s' tr) :
    ∃ s tr₀ es, Run M s₀ ls s tr₀ ∧ M.step s l = some (s', es) ∧ tr = tr₀ ++ es := by
  generalize hls : ls ++ [l] = ls' at h
  cases h with
  | nil => exact absurd hls (List.append_ne_nil_of_right_ne_nil _ (by simp))
  | @snoc ls₀ s tr₀ l₀ _ es hrun hstep =>
      obtain ⟨hls₀, hl⟩ := List.append_inj' hls rfl
      obtain rfl : l = l₀ := by simpa using hl
      subst hls₀
      exact ⟨s, tr₀, es, hrun, hstep, rfl⟩

/-- A run is determined by where it starts and by its labels. -/
theorem Run.det {tr' : List Ev} (h : Run M s₀ ls s tr) (h' : Run M s₀ ls s' tr') :
    s = s' ∧ tr = tr' := by
  induction h generalizing s' tr' with
  | nil =>
      obtain ⟨rfl, rfl⟩ := run_nil_inv h'
      exact ⟨rfl, rfl⟩
  | snoc _ hstep ih =>
      obtain ⟨s₁, tr₁, es₁, hrun₁, hstep₁, rfl⟩ := run_snoc_inv h'
      obtain ⟨rfl, rfl⟩ := ih hrun₁
      rw [hstep] at hstep₁
      obtain ⟨rfl, rfl⟩ := Prod.mk.inj (Option.some.inj hstep₁)
      exact ⟨rfl, rfl⟩

theorem Run.single (h : M.step s l = some (s', es)) : Run M s [l] s' es :=
  Run.snoc .nil h

/-- Two runs, the second from where the first ends, are one run. -/
theorem Run.append {ls' : List Lab} {tr' : List Ev} (h : Run M s₀ ls s tr)
    (h' : Run M s ls' s' tr') : Run M s₀ (ls ++ ls') s' (tr ++ tr') := by
  induction h' with
  | nil => simpa using h
  | snoc _ hstep ih =>
      rw [← List.append_assoc, ← List.append_assoc]
      exact ih.snoc hstep

end Runs

/-! ## Conditions and properties along a run -/

section Along

variable {M : Machine St Lab Ev} {s₀ : St} {ok : St → Lab → Prop}
  {good : St → List Ev → Prop} {ls : List Lab} {l : Lab}

theorem meets_nil : Meets M s₀ ok [] := by
  intro pre l post s tr h _
  exact absurd h.symm (List.append_ne_nil_of_right_ne_nil _ (by simp))

theorem always_nil (h : good s₀ []) : Always M s₀ good [] := by
  intro pre post s tr hls hrun
  obtain ⟨rfl, rfl⟩ := List.append_eq_nil_iff.mp hls.symm
  obtain ⟨rfl, rfl⟩ := run_nil_inv hrun
  exact h

theorem meets_snoc :
    Meets M s₀ ok (ls ++ [l]) ↔
      Meets M s₀ ok ls ∧ ∀ s tr, Run M s₀ ls s tr → ok s l := by
  constructor
  · intro h
    refine ⟨?_, fun s tr hrun => h ls l [] s tr rfl hrun⟩
    intro pre k post s tr hls hrun
    exact h pre k (post ++ [l]) s tr (by rw [hls]; simp) hrun
  · rintro ⟨h, hl⟩ pre k post s tr hls hrun
    -- the step is the last one, or one of the run before
    rcases List.eq_nil_or_concat post with rfl | ⟨post', k', rfl⟩
    · obtain ⟨rfl, hk⟩ := List.append_inj' hls rfl
      obtain rfl : l = k := by simpa using hk
      exact hl s tr hrun
    · rw [List.concat_eq_append, ← List.cons_append, ← List.append_assoc] at hls
      exact h pre k post' s tr (List.append_inj' hls rfl).1 hrun

theorem always_snoc :
    Always M s₀ good (ls ++ [l]) ↔
      Always M s₀ good ls ∧ ∀ s tr, Run M s₀ (ls ++ [l]) s tr → good s tr := by
  constructor
  · intro h
    refine ⟨?_, fun s tr hrun => h (ls ++ [l]) [] s tr (by simp) hrun⟩
    intro pre post s tr hls hrun
    exact h pre (post ++ [l]) s tr (by rw [hls]; simp) hrun
  · rintro ⟨h, hl⟩ pre post s tr hls hrun
    rcases List.eq_nil_or_concat post with rfl | ⟨post', k, rfl⟩
    · rw [List.append_nil] at hls
      subst hls
      exact hl s tr hrun
    · rw [List.concat_eq_append, ← List.append_assoc] at hls
      exact h pre post' s tr (List.append_inj' hls rfl).1 hrun

/-- The last step of a run that is known. -/
theorem Run.meets_last {s : St} {tr : List Ev} (h : Run M s₀ ls s tr) :
    Meets M s₀ ok (ls ++ [l]) ↔ Meets M s₀ ok ls ∧ ok s l := by
  rw [meets_snoc]
  refine and_congr_right fun _ => ⟨fun hlast => hlast s tr h, fun hlast s' tr' h' => ?_⟩
  obtain ⟨rfl, rfl⟩ := h.det h'
  exact hlast

/-- A condition on the labels alone. -/
theorem meets_of_forall (h : ∀ l ∈ ls, ∀ s, ok s l) : Meets M s₀ ok ls := by
  intro pre l post s tr hls _
  refine h l ?_ s
  rw [hls]
  simp

/-- A property of all states that a run passes through is met by its steps. -/
theorem meets_of_always (h : Always M s₀ good ls) (hok : ∀ s tr l, good s tr → ok s l) :
    Meets M s₀ ok ls := by
  intro pre l post s tr hls hrun
  exact hok s tr l (h pre (l :: post) s tr hls hrun)

end Along

/-! ## The rules -/

section Rules

variable {M : Machine St Lab Ev} {s₀ s : St} {ls : List Lab} {tr : List Ev}

/-- **The invariant rule under a condition.**  What holds at the start and
    survives every step that meets `C` holds after every run whose steps all
    meet `C`. -/
theorem Run.invariant_of_meets {C : St → Lab → Prop} {P : St → List Ev → Prop}
    (h0 : P s₀ [])
    (hstep : ∀ s tr l s' es, P s tr → C s l → M.step s l = some (s', es) →
      P s' (tr ++ es))
    (h : Run M s₀ ls s tr) (hok : Meets M s₀ C ls) : P s tr := by
  induction h with
  | nil => exact h0
  | snoc hrun hs ih =>
      obtain ⟨hpre, hlast⟩ := meets_snoc.mp hok
      exact hstep _ _ _ _ _ (ih hpre) (hlast _ _ hrun) hs

/-- **The invariant rule.** -/
theorem Run.invariant {P : St → List Ev → Prop} (h0 : P s₀ [])
    (hstep : ∀ s tr l s' es, P s tr → M.step s l = some (s', es) → P s' (tr ++ es))
    (h : Run M s₀ ls s tr) : P s tr := by
  have hall : Meets M s₀ (fun _ _ => True) ls := fun _ _ _ _ _ _ _ => trivial
  refine h.invariant_of_meets h0 ?_ hall
  intro s tr l s' es hP _ hs
  exact hstep s tr l s' es hP hs

/-- **The exactness rule.**  On the runs whose steps all meet `D`: the
    invariant `P` survives the steps that meet `C` and implies `G`, and from
    `P` only a step that meets `C` leads to `G`.  Then `G` holds all along a
    run exactly when all its steps meet `C`. -/
theorem always_iff_meets_within {D C : St → Lab → Prop} {P G : St → List Ev → Prop}
    (h0 : P s₀ []) (hgood : ∀ s tr, P s tr → G s tr)
    (hkeep : ∀ s tr l s' es, P s tr → D s l → C s l → M.step s l = some (s', es) →
      P s' (tr ++ es))
    (hbad : ∀ s tr l s' es, P s tr → D s l → M.step s l = some (s', es) →
      G s' (tr ++ es) → C s l)
    (h : Run M s₀ ls s tr) (hD : Meets M s₀ D ls) :
    Always M s₀ G ls ↔ Meets M s₀ C ls := by
  induction h with
  | nil => exact ⟨fun _ => meets_nil, fun _ => always_nil (hgood _ _ h0)⟩
  | @snoc ls s tr l s' es hrun hs ih =>
      obtain ⟨hDpre, hDlast⟩ := meets_snoc.mp hD
      have hDl : D s l := hDlast s tr hrun
      -- while the steps meet both conditions the invariant holds
      have hP : Meets M s₀ C ls → P s tr := by
        intro hpre
        refine hrun.invariant_of_meets (C := fun s l => D s l ∧ C s l) h0 ?_ ?_
        · intro s tr l s' es hP hDC hs
          exact hkeep s tr l s' es hP hDC.1 hDC.2 hs
        · intro pre l post s tr hls hpreRun
          exact ⟨hDpre pre l post s tr hls hpreRun, hpre pre l post s tr hls hpreRun⟩
      rw [always_snoc, meets_snoc, ih hDpre]
      refine and_congr_right fun hpre => ?_
      constructor
      · intro hlast s₁ tr₁ hrun₁
        obtain ⟨rfl, rfl⟩ := hrun.det hrun₁
        exact hbad s tr l s' es (hP hpre) hDl hs (hlast s' _ (hrun.snoc hs))
      · intro hlast s₁ tr₁ hrun₁
        obtain ⟨rfl, rfl⟩ := (hrun.snoc hs).det hrun₁
        exact hgood _ _ (hkeep s tr l s' es (hP hpre) hDl (hlast s tr hrun) hs)

/-- The exactness rule where `G` itself, beside an invariant `I` of all runs,
    survives a step exactly when the step meets `C`. -/
theorem always_iff_meets {I G : St → List Ev → Prop} {C : St → Lab → Prop}
    (hinv0 : I s₀ [])
    (hinv : ∀ s tr l s' es, I s tr → M.step s l = some (s', es) → I s' (tr ++ es))
    (hgood0 : G s₀ [])
    (hgood : ∀ s tr l s' es, I s tr → G s tr → M.step s l = some (s', es) →
      (G s' (tr ++ es) ↔ C s l))
    (h : Run M s₀ ls s tr) :
    Always M s₀ G ls ↔ Meets M s₀ C ls := by
  have hall : Meets M s₀ (fun _ _ => True) ls := fun _ _ _ _ _ _ _ => trivial
  refine always_iff_meets_within (P := fun s tr => I s tr ∧ G s tr) ⟨hinv0, hgood0⟩
    (fun _ _ hP => hP.2) ?_ ?_ h hall
  · intro s tr l s' es hP _ hC hs
    exact ⟨hinv s tr l s' es hP.1 hs, (hgood s tr l s' es hP.1 hP.2 hs).mpr hC⟩
  · intro s tr l s' es hP _ hs hG
    exact (hgood s tr l s' es hP.1 hP.2 hs).mp hG

/-- A property that is never regained once it is lost held all along a run
    exactly when it holds at its end. -/
theorem always_iff_of_never_regained {I G : St → List Ev → Prop}
    (hinv0 : I s₀ [])
    (hinv : ∀ s tr l s' es, I s tr → M.step s l = some (s', es) → I s' (tr ++ es))
    (hgood0 : G s₀ [])
    (hlost : ∀ s tr l s' es, I s tr → M.step s l = some (s', es) →
      G s' (tr ++ es) → G s tr)
    (h : Run M s₀ ls s tr) : Always M s₀ G ls ↔ G s tr := by
  constructor
  · intro hall
    exact hall ls [] s tr (by simp) h
  · induction h with
    | nil => exact fun _ => always_nil hgood0
    | snoc hrun hs ih =>
        intro hg
        have hI := hrun.invariant hinv0 hinv
        refine always_snoc.mpr ⟨ih (hlost _ _ _ _ _ hI hs hg), fun s₁ tr₁ hrun₁ => ?_⟩
        obtain ⟨rfl, rfl⟩ := (hrun.snoc hs).det hrun₁
        exact hg

open Relation in
/-- **The simulation rule.**  An abstraction that maps every step, from a state
    where the invariant `I` holds, to abstract steps (or to none) maps every
    run to an abstract run. -/
theorem Run.simulates {I : St → List Ev → Prop} {A : Abs → Abs → Prop}
    {abs : St → List Ev → Abs} (hinv0 : I s₀ [])
    (hinv : ∀ s tr l s' es, I s tr → M.step s l = some (s', es) → I s' (tr ++ es))
    (hstep : ∀ s tr l s' es, I s tr → M.step s l = some (s', es) →
      ReflTransGen A (abs s tr) (abs s' (tr ++ es)))
    (h : Run M s₀ ls s tr) : ReflTransGen A (abs s₀ []) (abs s tr) := by
  refine (h.invariant (P := fun s tr => I s tr ∧ ReflTransGen A (abs s₀ []) (abs s tr))
    ⟨hinv0, .refl⟩ ?_).2
  intro s tr l s' es hP hs
  exact ⟨hinv s tr l s' es hP.1 hs, hP.2.trans (hstep s tr l s' es hP.1 hs)⟩

/-- **The refinement rule.**  A relation between the states of two machines is kept
    by every step that meets `C`: the other machine takes steps for it, which are
    such as `L` says, and shows the same events.  Then it does so for every run
    whose steps all meet `C`. -/
theorem Run.relates {Lab' Ev' : Type} {A : Machine Abs Lab' Ev'} {R : St → Abs → Prop}
    {C : St → Lab → Prop} {L : Lab → List Lab' → Prop} {view : Ev' → Option Ev} {a₀ : Abs}
    (hstep : ∀ s a l s' es, R s a → C s l → M.step s l = some (s', es) →
      ∃ ls' a' es', L l ls' ∧ Run A a ls' a' es' ∧ es'.filterMap view = es ∧ R s' a')
    (h : Run M s₀ ls s tr) (h0 : R s₀ a₀) (hok : Meets M s₀ C ls) :
    ∃ lss a tr', List.Forall₂ L ls lss ∧ Run A a₀ lss.flatten a tr' ∧
      tr'.filterMap view = tr ∧ R s a := by
  induction h with
  | nil => exact ⟨[], a₀, [], .nil, .nil, rfl, h0⟩
  | snoc hrun hs ih =>
      obtain ⟨hpre, hlast⟩ := hrun.meets_last.mp hok
      obtain ⟨lss, a, tr', hlabels, hsofar, rfl, hR⟩ := ih hpre
      obtain ⟨ls', a', es', hl, hnext, rfl, hR'⟩ := hstep _ _ _ _ _ hR hlast hs
      refine ⟨lss ++ [ls'], a', tr' ++ es', ?_, ?_, List.filterMap_append, hR'⟩
      · exact List.rel_append hlabels (.cons hl .nil)
      · simpa using hsofar.append hnext

end Rules

/-! ## History -/

/-- The machine with its trace so far as a part of the state, so that a
    condition on a step can look at what has happened before it. -/
def Machine.history (M : Machine St Lab Ev) : Machine (St × List Ev) Lab Ev where
  start s := M.start s.1 ∧ s.2 = []
  step s l := (M.step s.1 l).map fun r => ((r.1, s.2 ++ r.2), r.2)

/-- A run of the machine is one of the machine with history. -/
theorem Run.history {M : Machine St Lab Ev} {s₀ s : St} {ls : List Lab} {tr : List Ev}
    (h : Run M s₀ ls s tr) : Run M.history (s₀, []) ls (s, tr) tr := by
  induction h with
  | nil => exact .nil
  | snoc _ hs ih => exact ih.snoc (by simp [Machine.history, hs])

/-- The invariant rule under a condition on the history. -/
theorem Run.invariant_of_history {M : Machine St Lab Ev} {s₀ s : St} {ls : List Lab}
    {tr : List Ev} {C : St × List Ev → Lab → Prop} {P : St → List Ev → Prop}
    (h0 : P s₀ [])
    (hstep : ∀ s tr l s' es, P s tr → C (s, tr) l → M.step s l = some (s', es) →
      P s' (tr ++ es))
    (h : Run M s₀ ls s tr) (hok : Meets M.history (s₀, []) C ls) : P s tr := by
  refine (h.history.invariant_of_meets (C := C) (P := fun s tr => s.2 = tr ∧ P s.1 tr)
    ⟨rfl, h0⟩ ?_ hok).2
  rintro ⟨s, seen⟩ tr l s' es ⟨rfl, hP⟩ hC hs
  obtain ⟨⟨s₁, es₁⟩, hs₁, heq⟩ := Option.map_eq_some_iff.mp hs
  obtain ⟨rfl, rfl⟩ := Prod.mk.inj heq
  exact ⟨rfl, hstep s seen l s₁ es₁ hP hC hs₁⟩

/-! ## Executing a schedule -/

/-- The run of the labels from a state, if all are enabled in turn. -/
def exec (M : Machine St Lab Ev) : St → List Lab → Option (St × List Ev)
  | s, [] => some (s, [])
  | s, l :: ls =>
      match M.step s l with
      | none => none
      | some (s', es) => (exec M s' ls).map (fun r => (r.1, es ++ r.2))

/-- What the executable run returns is a run. -/
theorem run_of_exec {M : Machine St Lab Ev} {ls : List Lab} {s₀ s : St}
    {tr : List Ev} (h : exec M s₀ ls = some (s, tr)) : Run M s₀ ls s tr := by
  induction ls generalizing s₀ tr with
  | nil =>
      obtain ⟨rfl, rfl⟩ := Prod.mk.inj (Option.some.inj h)
      exact .nil
  | cons l ls ih =>
      rw [exec] at h
      cases hs : M.step s₀ l with
      | none => rw [hs] at h; exact nomatch h
      | some p =>
          obtain ⟨s₁, es⟩ := p
          rw [hs] at h
          obtain ⟨⟨s₂, tr₂⟩, htail, heq⟩ := Option.map_eq_some_iff.mp h
          obtain ⟨rfl, rfl⟩ := Prod.mk.inj heq
          exact (Run.single hs).append (ih htail)

/-- The run that emits the events it is computed to emit. -/
theorem run_of_events {M : Machine St Lab Ev} {ls : List Lab} {s₀ : St} {tr : List Ev}
    (h : (exec M s₀ ls).map Prod.snd = some tr) : ∃ s, Run M s₀ ls s tr := by
  obtain ⟨⟨s, _⟩, hexec, rfl⟩ := Option.map_eq_some_iff.mp h
  exact ⟨s, run_of_exec hexec⟩

theorem run_cons_inv {M : Machine St Lab Ev} {s₀ s : St} {l : Lab} {ls : List Lab}
    {tr : List Ev} (h : Run M s₀ (l :: ls) s tr) :
    ∃ s₁ es tr', M.step s₀ l = some (s₁, es) ∧ Run M s₁ ls s tr' := by
  generalize hls : l :: ls = ls' at h
  induction h generalizing ls with
  | nil => exact nomatch hls
  | @snoc ls₀ s₂ tr₂ x s es hrun hstep ih =>
      cases ls₀ with
      | nil =>
          obtain ⟨rfl, -⟩ := run_nil_inv hrun
          obtain ⟨rfl, rfl⟩ := List.cons.inj hls
          exact ⟨s, es, [], hstep, .nil⟩
      | cons p ls₁ =>
          obtain ⟨rfl, rfl⟩ := List.cons.inj hls
          obtain ⟨s₁, es₁, tr', hfirst, hrest⟩ := ih rfl
          exact ⟨s₁, es₁, tr' ++ es, hfirst, hrest.snoc hstep⟩

/-- Whether all steps of a schedule meet a decidable condition. -/
def checks (M : Machine St Lab Ev) (ok : St → Lab → Prop) [∀ s l, Decidable (ok s l)] :
    St → List Lab → Bool
  | _, [] => true
  | s, l :: ls =>
      decide (ok s l) &&
        match M.step s l with
        | none => true
        | some (s', _) => checks M ok s' ls

theorem meets_of_checks {M : Machine St Lab Ev} {ok : St → Lab → Prop}
    [∀ s l, Decidable (ok s l)] {ls : List Lab} {s₀ : St}
    (h : checks M ok s₀ ls = true) : Meets M s₀ ok ls := by
  induction ls generalizing s₀ with
  | nil => exact meets_nil
  | cons l ls ih =>
      rw [checks, Bool.and_eq_true, decide_eq_true_eq] at h
      rintro pre k post s tr hls hrun
      cases pre with
      | nil =>
          obtain ⟨rfl, -⟩ := run_nil_inv hrun
          obtain ⟨rfl, -⟩ := List.cons.inj hls
          exact h.1
      | cons p pre =>
          obtain ⟨rfl, hrestEq⟩ := List.cons.inj hls
          obtain ⟨s₁, es, tr', hstep, hrest⟩ := run_cons_inv hrun
          have htail := h.2
          rw [hstep] at htail
          exact ih htail pre k post s tr' hrestEq hrest

/-- A trace predicate that a step's own events decide: it holds of the whole
    trace when it holds of every event a step emits. -/
theorem Run.forall_events {M : Machine St Lab Ev} {s₀ s : St} {ls : List Lab}
    {tr : List Ev} {p : Ev → Prop}
    (hstep : ∀ s l s' es, M.step s l = some (s', es) → ∀ e ∈ es, p e)
    (h : Run M s₀ ls s tr) : ∀ e ∈ tr, p e := by
  refine h.invariant (P := fun _ tr => ∀ e ∈ tr, p e) (by simp) ?_
  intro s tr l s' es hP hs e he
  rcases List.mem_append.mp he with h1 | h1
  · exact hP e h1
  · exact hstep s l s' es hs e h1

end StepMachine
