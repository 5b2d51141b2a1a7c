import XtopEbpf.Watchdog

/-!
# Concurrent invocations on a pairing table

Invocations of a latency handler pair run on several CPUs at once and share its
pairing table. Each map call is one atomic step: a begin's `BPF_ANY` update, an
end's lookup together with the load of the entry through the pointer it
returns, and later the end's delete. Between an end's lookup and its delete
another invocation may act on the same key: a second end finds the same entry,
or a begin's fresh entry is removed by the first end's delete. A `Pc` says
where one invocation stands in its ops and a schedule picks which invocation
steps next, so the runs of `sysRun` are all the interleavings. The log records
each op at the step it takes effect, a begin at its update and an end at its
lookup, tagged with its invocation.

Over every schedule in which no invocation acts on a key while an end on that
key is between its lookup and its delete, and in which every begin finds room,
the ends hand on exactly the completions the sequential engine yields over the
log, and the table is the engine's at every key no end holds
(`clean_runs_follow_engine`). Over every schedule, clean or not, the log keeps
each invocation's ops in program order. This file does not model the
accumulation table: what the ends hand on goes to the insert-or-merge code,
whose interleavings `Atomic` covers.
-/

namespace XtopEbpf.PairingConcurrent

open Runtime Pairing Watchdog

/-- Where one invocation of a handler pair stands in its ops on the pairing table. -/
inductive Pc (K V I : Type) where
  /-- Before its next op; `ops` are the ops still to run. -/
  | ready (ops : List (PairOp K V I))
  /-- An end's lookup found the live entry `v` of `k` and handed it on: the delete of `k` is due,
  then the ops `ops`. -/
  | found (k : K) (v : V) (ops : List (PairOp K V I))
  deriving DecidableEq

namespace Pc

variable {K V I : Type}

/-- The ops still to run after a pending delete. -/
def rest : Pc K V I → List (PairOp K V I)
  | ready ops | found _ _ ops => ops

/-- The key an end has looked up and not yet deleted. -/
def holds : Pc K V I → Option K
  | ready _ => none
  | found k _ _ => some k

/-- The key the invocation's next step acts on. -/
def nextKey : Pc K V I → Option K
  | ready [] => none
  | ready (op :: _) => some op.key
  | found k _ _ => some k

/-- The key a begin about to run stores. -/
def beginKey : Pc K V I → Option K
  | ready (.begin k _ :: _) => some k
  | _ => none

end Pc

/-- The pairing table, every invocation's place, and what the invocations have done so far. -/
structure Sys (K V I : Type) where
  /-- The pairing table. -/
  table : BpfMap K V
  /-- The invocations. -/
  threads : List (Pc K V I)
  /-- Each op at the step it took effect (a begin at its update, an end at its lookup), with the
  index of its invocation. -/
  log : List (Nat × PairOp K V I)
  /-- The completions the ends handed on, in the order of their lookups. -/
  handed : List (Completion K V I)

/-- The table `m` and invocations with ops `invs`, none started. -/
def Sys.init {K V I : Type} (m : BpfMap K V) (invs : List (List (PairOp K V I))) : Sys K V I :=
  ⟨m, invs.map .ready, [], []⟩

section Steps

variable {K V I : Type} [DecidableEq K] (live : V → Bool)

/-- One atomic step of an invocation: the table and its place after the step, the op that took
effect in it, and the completion it handed on. -/
def threadStep (m : BpfMap K V) :
    Pc K V I → BpfMap K V × Pc K V I × Option (PairOp K V I) × Option (Completion K V I)
  | .ready [] => (m, .ready [], none, none)
  | .ready (.begin k v :: ops) => ((m.updateElem k v .any).2, .ready ops, some (.begin k v), none)
  | .ready (.finish k now i :: ops) =>
    match m.lookupElem k with
    | some v =>
      if live v then (m, .found k v ops, some (.finish k now i), some ⟨k, v, now, i⟩)
      else (m, .ready ops, some (.finish k now i), none)
    | none => (m, .ready ops, some (.finish k now i), none)
  | .found k _ ops => (m.deleteElem k, .ready ops, none, none)

/-- The scheduler runs one step of invocation `i`; an index past the last does nothing. -/
def sysStep (s : Sys K V I) (i : Nat) : Sys K V I :=
  match s.threads[i]? with
  | some p =>
    ⟨(threadStep live s.table p).1, s.threads.set i (threadStep live s.table p).2.1,
      s.log ++ ((threadStep live s.table p).2.2.1.map (i, ·)).toList,
      s.handed ++ (threadStep live s.table p).2.2.2.toList⟩
  | none => s

/-- The state a schedule leads to. -/
def sysRun (s : Sys K V I) (sched : List Nat) : Sys K V I := sched.foldl (sysStep live) s

end Steps

/-! ## Program order -/

section Order

variable {K V I : Type}

/-- Each invocation's logged ops, followed by the ops it has left, are its ops. -/
def ProgramOrder (invs : List (List (PairOp K V I))) (s : Sys K V I) : Prop :=
  ∀ i, (s.log.filter (·.1 = i)).map (·.2) ++ (s.threads[i]?.map Pc.rest).getD [] =
    invs[i]?.getD []

/-- Before any step, every invocation has all its ops left and none logged. -/
theorem programOrder_init (m : BpfMap K V) (invs : List (List (PairOp K V I))) :
    ProgramOrder invs (Sys.init m invs) := by
  intro i
  cases h : invs[i]? <;> simp [Sys.init, h, Pc.rest]

variable [DecidableEq K] (live : V → Bool)

/-- What a step logs, followed by what is left to run, is what was left before it. -/
theorem threadStep_rest (m : BpfMap K V) :
    ∀ p : Pc K V I, (threadStep live m p).2.2.1.toList ++ (threadStep live m p).2.1.rest = p.rest
  | .ready [] => rfl
  | .ready (.begin _ _ :: _) => rfl
  | .ready (.finish k _ _ :: _) => by
    simp only [threadStep]
    split
    · split <;> rfl
    · rfl
  | .found _ _ _ => rfl

/-- A step keeps every invocation's ops in order in the log. -/
theorem programOrder_sysStep {invs : List (List (PairOp K V I))} {s : Sys K V I}
    (h : ProgramOrder invs s) (i : Nat) : ProgramOrder invs (sysStep live s i) := by
  intro j
  unfold sysStep
  cases hp : s.threads[i]? with
  | none => exact h j
  | some p =>
    simp only [getElem?_set_of_getElem? hp, List.filter_append, List.map_append]
    by_cases hij : j = i
    · subst hij
      have hl : ((((threadStep live s.table p).2.2.1.map (j, ·)).toList.filter (·.1 = j)).map (·.2)) =
          (threadStep live s.table p).2.2.1.toList := by
        cases (threadStep live s.table p).2.2.1 <;> simp
      rw [if_pos rfl, hl, ← h j, hp]
      simp [← threadStep_rest live s.table p]
    · have hl : (((threadStep live s.table p).2.2.1.map (i, ·)).toList.filter (·.1 = j)) = [] := by
        cases (threadStep live s.table p).2.2.1 <;> simp [Ne.symm hij]
      rw [if_neg hij, hl, List.map_nil, List.append_nil]
      exact h j

/-- Over every schedule, clean or not, the log keeps each invocation's ops in program order. -/
theorem programOrder_sysRun {invs : List (List (PairOp K V I))} :
    ∀ (s : Sys K V I) (sched : List Nat), ProgramOrder invs s → ProgramOrder invs (sysRun live s sched)
  | _, [], h => h
  | s, i :: sched, h => programOrder_sysRun (sysStep live s i) sched (programOrder_sysStep live h i)

end Order

/-! ## Clean schedules follow the sequential engine -/

section Engine

variable {K V I : Type} [DecidableEq K] (live : V → Bool) (m₀ : BpfMap K V)

/-- The sequential engine's table and completions over the log, from the table `m₀`. -/
def Sys.engine (s : Sys K V I) : BpfMap K V × List (Completion K V I) :=
  pairRun live m₀ (s.log.map Prod.snd)

/-- No end holds `k` between its lookup and its delete. -/
def Sys.Free (s : Sys K V I) (k : K) : Prop := ∀ j : Nat, s.threads[j]?.bind Pc.holds ≠ some k

/-- Step `i` is clean: no other invocation holds the key it acts on, and a begin finds room. -/
def Clean (s : Sys K V I) (i : Nat) : Prop :=
  ∀ p ∈ s.threads[i]?,
    (∀ k ∈ p.nextKey, ∀ j < s.threads.length, j ≠ i → s.threads[j]?.bind Pc.holds ≠ some k) ∧
      ∀ k ∈ p.beginKey, s.table.HasRoom k

instance instDecidableClean (s : Sys K V I) (i : Nat) : Decidable (Clean s i) :=
  inferInstanceAs (Decidable (∀ p ∈ s.threads[i]?, _ ∧ _))

/-- Every step of the schedule is clean. -/
def CleanRun : Sys K V I → List Nat → Prop
  | _, [] => True
  | s, i :: sched => Clean s i ∧ CleanRun (sysStep live s i) sched

instance instDecidableCleanRun : ∀ (s : Sys K V I) (sched : List Nat), Decidable (CleanRun live s sched)
  | _, [] => isTrue trivial
  | s, i :: sched =>
    have := instDecidableCleanRun (sysStep live s i) sched
    inferInstanceAs (Decidable (_ ∧ _))

end Engine

/-- What holds along every clean schedule from the table `m₀`. -/
structure Inv {K V I : Type} [DecidableEq K] (live : V → Bool) (m₀ : BpfMap K V) (s : Sys K V I) :
    Prop where
  /-- A key no end holds has the engine's entry. -/
  agree : ∀ k, s.Free k → s.table.lookupElem k = (s.engine live m₀).1.lookupElem k
  /-- An end between its lookup and its delete finds its entry still in the table; the engine
  has already deleted it. -/
  held : ∀ (j : Nat) k v ops, s.threads[j]? = some (.found k v ops) →
    s.table.lookupElem k = some v ∧ (s.engine live m₀).1.lookupElem k = none
  /-- No two ends hold one key. -/
  unique : ∀ (i j : Nat) k, s.threads[i]?.bind Pc.holds = some k → s.threads[j]?.bind Pc.holds = some k →
    i = j
  /-- The ends have handed on exactly what the engine yields over the log. -/
  handed : s.handed = (s.engine live m₀).2
  /-- The table keeps its capacity. -/
  cap : s.table.maxEntries = m₀.maxEntries

section Engine

variable {K V I : Type} [DecidableEq K] (live : V → Bool) (m₀ : BpfMap K V)

/-- The engine over a log with one more op. -/
theorem pairRun_snoc (m : BpfMap K V) (ops : List (PairOp K V I)) (op : PairOp K V I) :
    pairRun live m (ops ++ [op]) =
      (pairStep live (pairRun live m ops).1 op,
        (pairRun live m ops).2 ++ (pairYield live (pairRun live m ops).1 op).toList) := by
  rw [pairRun_append]
  simp [pairRun]

variable {live m₀}

/-- Where no end holds a key, the table has room for it only if the engine's table has. -/
theorem hasRoom_engine {s : Sys K V I} (hinv : Inv live m₀ s) {k : K} (hk : s.Free k)
    (h : s.table.HasRoom k) : (s.engine live m₀).1.HasRoom k := by
  rcases h with hmem | hsize
  · exact .inl (BpfMap.mem_iff_lookupElem.mpr (hinv.agree k hk ▸ BpfMap.mem_iff_lookupElem.mp hmem))
  · refine .inr (lt_of_le_of_lt (BpfMap.size_le_of_lookupElem fun k₁ h₁ => ?_ : _ ≤ s.table.size) ?_)
    · by_cases hf : s.Free k₁
      · rwa [hinv.agree k₁ hf]
      · obtain ⟨j, hj⟩ := not_forall_not.mp hf
        cases hp : s.threads[j]? with
        | none => simp [hp] at hj
        | some p =>
          cases p with
          | ready ops => simp [hp, Pc.holds] at hj
          | found k₂ v ops =>
            simp only [hp, Option.some_bind, Pc.holds, Option.some.injEq] at hj
            subst hj
            exact absurd (hinv.held j k₂ v ops hp).2 h₁
    · rw [Sys.engine, maxEntries_pairRun, ← hinv.cap]
      exact hsize

/-- A step of invocation `i`, read at every index. -/
theorem threads_sysStep {s : Sys K V I} {i : Nat} {p : Pc K V I} (hp : s.threads[i]? = some p)
    (j : Nat) : (sysStep live s i).threads[j]? =
      if j = i then some (threadStep live s.table p).2.1 else s.threads[j]? := by
  simp only [sysStep, hp]
  exact getElem?_set_of_getElem? hp _ j

/-- The table after a step of invocation `i`. -/
theorem table_sysStep {s : Sys K V I} {i : Nat} {p : Pc K V I} (hp : s.threads[i]? = some p) :
    (sysStep live s i).table = (threadStep live s.table p).1 := by
  simp only [sysStep, hp]

/-- The completions handed on after a step of invocation `i`. -/
theorem handed_sysStep {s : Sys K V I} {i : Nat} {p : Pc K V I} (hp : s.threads[i]? = some p) :
    (sysStep live s i).handed = s.handed ++ (threadStep live s.table p).2.2.2.toList := by
  simp only [sysStep, hp]

/-- A step in which an op takes effect moves the engine by that op. -/
theorem engine_sysStep {s : Sys K V I} {i : Nat} {p : Pc K V I} (hp : s.threads[i]? = some p)
    {op : PairOp K V I} (hop : (threadStep live s.table p).2.2.1 = some op) :
    (sysStep live s i).engine live m₀ =
      (pairStep live (s.engine live m₀).1 op,
        (s.engine live m₀).2 ++ (pairYield live (s.engine live m₀).1 op).toList) := by
  simp only [Sys.engine, sysStep, hp, hop, Option.map_some', Option.toList_some, List.map_append,
    List.map_cons, List.map_nil]
  exact pairRun_snoc live m₀ _ op

/-- A delete, or a step of a finished invocation, leaves the engine where it was. -/
theorem engine_sysStep_of_none {s : Sys K V I} {i : Nat} {p : Pc K V I}
    (hp : s.threads[i]? = some p) (hop : (threadStep live s.table p).2.2.1 = none) :
    (sysStep live s i).engine live m₀ = s.engine live m₀ := by
  simp [Sys.engine, sysStep, hp, hop]

omit [DecidableEq K] in
/-- A clean step acts on a key no end holds. -/
theorem free_of_clean {s : Sys K V I} {i : Nat} {p : Pc K V I} (hp : s.threads[i]? = some p)
    (hc : Clean s i) (hnone : p.holds = none) {k : K} (hk : p.nextKey = some k) : s.Free k := by
  intro j
  by_cases hj : j = i
  · subst hj
    simp [hp, hnone]
  · by_cases hlt : j < s.threads.length
    · exact (hc p hp).1 k hk j hlt hj
    · simp [List.getElem?_eq_none (Nat.le_of_not_lt hlt)]

/-- A step that keeps the table, the engine, the completions handed on and every end's hold
keeps the invariant. -/
theorem Inv.of_quiet {s s' : Sys K V I} (hinv : Inv live m₀ s) (htable : s'.table = s.table)
    (hengine : s'.engine live m₀ = s.engine live m₀) (hhanded : s'.handed = s.handed)
    (hholds : ∀ j : Nat, s'.threads[j]?.bind Pc.holds = s.threads[j]?.bind Pc.holds)
    (hfound : ∀ (j : Nat) k v ops, s'.threads[j]? = some (.found k v ops) →
      s.threads[j]? = some (.found k v ops)) : Inv live m₀ s' where
  agree k hk := by
    rw [htable, hengine]
    exact hinv.agree k fun j => hholds j ▸ hk j
  held j k v ops h := by
    rw [htable, hengine]
    exact hinv.held j k v ops (hfound j k v ops h)
  unique i j k hi hj := hinv.unique i j k (hholds i ▸ hi) (hholds j ▸ hj)
  handed := by rw [hhanded, hengine]; exact hinv.handed
  cap := by rw [htable]; exact hinv.cap

/-- A step of invocation `i` that leaves it holding no key, from a place holding none, changes
no end's hold and makes no end. -/
theorem holds_sysStep_of_ready (live : V → Bool) {s : Sys K V I} {i : Nat} {p : Pc K V I}
    (hp : s.threads[i]? = some p) (hnone : p.holds = none)
    {ops : List (PairOp K V I)} (hready : (threadStep live s.table p).2.1 = .ready ops) :
    (∀ j : Nat, (sysStep live s i).threads[j]?.bind Pc.holds = s.threads[j]?.bind Pc.holds) ∧
      ∀ (j : Nat) k v ops', (sysStep live s i).threads[j]? = some (.found k v ops') →
        s.threads[j]? = some (.found k v ops') := by
  refine ⟨fun j => ?_, fun j k v ops' h => ?_⟩
  · rw [threads_sysStep hp, hready]
    split_ifs with hj
    · subst hj
      simp only [hp, Option.some_bind, hnone]
      rfl
    · rfl
  · rw [threads_sysStep hp, hready] at h
    split_ifs at h with hj
    · cases h
    · exact h

/-- A begin on a key no end holds, with room: both the table and the engine store its entry. -/
theorem inv_begin {s : Sys K V I} (hinv : Inv live m₀ s) {i : Nat} {k : K} {v : V}
    {ops : List (PairOp K V I)} (hp : s.threads[i]? = some (.ready (.begin k v :: ops)))
    (hc : Clean s i) : Inv live m₀ (sysStep live s i) := by
  have hfree : s.Free k := free_of_clean hp hc rfl rfl
  have hroom : s.table.HasRoom k := (hc _ hp).2 k rfl
  have hroomE := hasRoom_engine hinv hfree hroom
  obtain ⟨hholds, hfound⟩ := holds_sysStep_of_ready live hp rfl rfl
  have htable : (sysStep live s i).table = s.table.put k v hroom := by
    rw [table_sysStep hp]
    simp [threadStep, BpfMap.updateElem_any _ _ _ hroom]
  have hengine : (sysStep live s i).engine live m₀ =
      ((s.engine live m₀).1.put k v hroomE, (s.engine live m₀).2) := by
    rw [engine_sysStep hp rfl]
    simp [pairStep, pairYield, BpfMap.updateElem_any _ _ _ hroomE]
  refine ⟨fun k₁ hk₁ => ?_, fun j k₂ v₂ ops₂ hj => ?_, fun a b k₃ ha hb => ?_, ?_, ?_⟩
  · rw [htable, hengine, BpfMap.lookupElem_put, BpfMap.lookupElem_put,
      hinv.agree k₁ fun j => hholds j ▸ hk₁ j]
  · have hj' := hfound j k₂ v₂ ops₂ hj
    have hne : k₂ ≠ k := fun e => hfree j (by simp [hj', Pc.holds, e])
    rw [htable, hengine, BpfMap.lookupElem_put, BpfMap.lookupElem_put, if_neg hne, if_neg hne]
    exact hinv.held j k₂ v₂ ops₂ hj'
  · exact hinv.unique a b k₃ (hholds a ▸ ha) (hholds b ▸ hb)
  · rw [handed_sysStep hp, hengine]
    simpa [threadStep] using hinv.handed
  · rw [htable]
    exact hinv.cap

/-- An end on a key no end holds that finds no live entry: nothing changes but the log. -/
theorem inv_miss {s : Sys K V I} (hinv : Inv live m₀ s) {i : Nat} {k : K} {now : U64} {info : I}
    {ops : List (PairOp K V I)} (hp : s.threads[i]? = some (.ready (.finish k now info :: ops)))
    (hc : Clean s i) (hmiss : ∀ v, s.table.lookupElem k = some v → live v = false) :
    Inv live m₀ (sysStep live s i) := by
  have hvE : (s.engine live m₀).1.lookupElem k = s.table.lookupElem k :=
    (hinv.agree k (free_of_clean hp hc rfl rfl)).symm
  have hstep : threadStep live s.table (.ready (.finish k now info :: ops)) =
      (s.table, .ready ops, some (.finish k now info), none) := by
    cases hv : s.table.lookupElem k with
    | none => simp [threadStep, hv]
    | some v => simp [threadStep, hv, hmiss v hv]
  obtain ⟨hholds, hfound⟩ := holds_sysStep_of_ready live hp rfl (by rw [hstep])
  refine hinv.of_quiet (by rw [table_sysStep hp, hstep]) ?_ (by simp [handed_sysStep hp, hstep])
    hholds hfound
  rw [engine_sysStep hp (by rw [hstep])]
  cases hv : s.table.lookupElem k with
  | none => simp [pairStep, pairYield, hvE, hv]
  | some v => simp [pairStep, pairYield, hvE, hv, hmiss v hv]

/-- An end on a key no end holds that finds a live entry hands it on and holds the key: the
engine consumes the entry at once, the table keeps it until the delete. -/
theorem inv_found {s : Sys K V I} (hinv : Inv live m₀ s) {i : Nat} {k : K} {now : U64} {info : I}
    {ops : List (PairOp K V I)} (hp : s.threads[i]? = some (.ready (.finish k now info :: ops)))
    (hc : Clean s i) {v : V} (hv : s.table.lookupElem k = some v) (hl : live v = true) :
    Inv live m₀ (sysStep live s i) := by
  have hfree : s.Free k := free_of_clean hp hc rfl rfl
  have hvE : (s.engine live m₀).1.lookupElem k = some v := (hinv.agree k hfree).symm.trans hv
  have hstep : threadStep live s.table (.ready (.finish k now info :: ops)) =
      (s.table, .found k v ops, some (.finish k now info), some ⟨k, v, now, info⟩) := by
    simp [threadStep, hv, hl]
  have hth : ∀ j : Nat, (sysStep live s i).threads[j]? =
      if j = i then some (.found k v ops) else s.threads[j]? := fun j => by
    rw [threads_sysStep hp, hstep]
  have htable : (sysStep live s i).table = s.table := by rw [table_sysStep hp, hstep]
  have hengine : (sysStep live s i).engine live m₀ =
      ((s.engine live m₀).1.deleteElem k, (s.engine live m₀).2 ++ [⟨k, v, now, info⟩]) := by
    rw [engine_sysStep hp (by rw [hstep])]
    simp [pairStep, pairYield, hvE, hl]
  refine ⟨fun k₁ hk₁ => ?_, fun j k₂ v₂ ops₂ hj => ?_, fun a b k₃ ha hb => ?_, ?_, ?_⟩
  · have hne : k₁ ≠ k := fun e => hk₁ i (by simp [hth, e, Pc.holds])
    have hk₁' : s.Free k₁ := fun j hj => by
      by_cases hji : j = i
      · subst hji
        simp [hp, Pc.holds] at hj
      · exact hk₁ j (by rw [hth, if_neg hji]; exact hj)
    rw [htable, hengine, BpfMap.lookupElem_deleteElem, if_neg hne, hinv.agree k₁ hk₁']
  · rw [hth] at hj
    split_ifs at hj with hji
    · cases hj
      rw [htable, hengine, BpfMap.lookupElem_deleteElem, if_pos rfl]
      exact ⟨hv, rfl⟩
    · have hne : k₂ ≠ k := fun e => hfree j (by simp [hj, Pc.holds, e])
      rw [htable, hengine, BpfMap.lookupElem_deleteElem, if_neg hne]
      exact hinv.held j k₂ v₂ ops₂ hj
  · rw [hth] at ha hb
    by_cases hai : a = i <;> by_cases hbi : b = i
    · rw [hai, hbi]
    · simp only [hai, hbi, if_true, if_false, Option.some_bind, Pc.holds, Option.some.injEq] at ha hb
      exact absurd (ha ▸ hb) (hfree b)
    · simp only [hai, hbi, if_true, if_false, Option.some_bind, Pc.holds, Option.some.injEq] at ha hb
      exact absurd (hb ▸ ha) (hfree a)
    · simp only [hai, hbi, if_false] at ha hb
      exact hinv.unique a b k₃ ha hb
  · rw [handed_sysStep hp, hengine, hstep, hinv.handed]
    rfl
  · rw [htable]
    exact hinv.cap

/-- The delete of a held key: the table drops the entry the engine has already consumed. -/
theorem inv_delete {s : Sys K V I} (hinv : Inv live m₀ s) {i : Nat} {k : K} {v : V}
    {ops : List (PairOp K V I)} (hp : s.threads[i]? = some (.found k v ops)) :
    Inv live m₀ (sysStep live s i) := by
  obtain ⟨-, hvE⟩ := hinv.held i k v ops hp
  have hth : ∀ j : Nat, (sysStep live s i).threads[j]? =
      if j = i then some (.ready ops) else s.threads[j]? := fun j => by
    rw [threads_sysStep hp]
    rfl
  have htable : (sysStep live s i).table = s.table.deleteElem k := table_sysStep hp
  have hengine : (sysStep live s i).engine live m₀ = s.engine live m₀ := engine_sysStep_of_none hp rfl
  have hheld : s.threads[i]?.bind Pc.holds = some k := by simp [hp, Pc.holds]
  refine ⟨fun k₁ hk₁ => ?_, fun j k₂ v₂ ops₂ hj => ?_, fun a b k₃ ha hb => ?_, ?_, ?_⟩
  · rw [htable, hengine, BpfMap.lookupElem_deleteElem]
    split_ifs with hk
    · rw [hk]
      exact hvE.symm
    · refine hinv.agree k₁ fun j hj => ?_
      by_cases hji : j = i
      · subst hji
        exact hk (Option.some.inj (hheld.symm.trans hj)).symm
      · exact hk₁ j (by rw [hth, if_neg hji]; exact hj)
  · rw [hth] at hj
    split_ifs at hj with hji
    · cases hj
    · have hne : k₂ ≠ k := fun e =>
        hji (hinv.unique j i k (by simp [hj, Pc.holds, e]) hheld)
      rw [htable, hengine, BpfMap.lookupElem_deleteElem, if_neg hne]
      exact hinv.held j k₂ v₂ ops₂ hj
  · rw [hth] at ha hb
    by_cases hai : a = i <;> by_cases hbi : b = i <;>
      simp only [hai, hbi, if_true, if_false, Option.some_bind, Pc.holds, reduceCtorEq] at ha hb ⊢
    exact hinv.unique a b k₃ ha hb
  · rw [handed_sysStep hp, hengine]
    simpa [threadStep] using hinv.handed
  · rw [htable]
    exact hinv.cap

/-- A clean step keeps the invariant. -/
theorem inv_sysStep {s : Sys K V I} (hinv : Inv live m₀ s) {i : Nat} (hc : Clean s i) :
    Inv live m₀ (sysStep live s i) := by
  cases hp : s.threads[i]? with
  | none =>
    have hs : sysStep live s i = s := by simp [sysStep, hp]
    rwa [hs]
  | some p =>
    match p, hp with
    | .ready [], hp =>
      obtain ⟨hholds, hfound⟩ := holds_sysStep_of_ready live hp rfl rfl
      exact hinv.of_quiet (table_sysStep hp) (engine_sysStep_of_none hp rfl)
        (by simp [handed_sysStep hp, threadStep]) hholds hfound
    | .ready (.begin _ _ :: _), hp => exact inv_begin hinv hp hc
    | .ready (.finish k _ _ :: _), hp =>
      cases hv : s.table.lookupElem k with
      | none => exact inv_miss hinv hp hc (by simp [hv])
      | some v =>
        cases hl : live v
        · exact inv_miss hinv hp hc (by simp [hv, hl])
        · exact inv_found hinv hp hc hv hl
    | .found _ _ _, hp => exact inv_delete hinv hp

/-- Every clean schedule keeps the invariant. -/
theorem inv_sysRun : ∀ (s : Sys K V I) (sched : List Nat), Inv live m₀ s →
    CleanRun live s sched → Inv live m₀ (sysRun live s sched)
  | _, [], hinv, _ => hinv
  | s, i :: sched, hinv, ⟨hc, hrest⟩ => inv_sysRun (sysStep live s i) sched (inv_sysStep hinv hc) hrest

variable (live m₀)

/-- No invocation has started: the table is the engine's over the empty log. -/
theorem inv_init (invs : List (List (PairOp K V I))) : Inv live m₀ (Sys.init m₀ invs) where
  agree _ _ := rfl
  held j k v ops h := by simp [Sys.init] at h
  unique i j k hi _ := by
    cases h : invs[i]? <;> simp [Sys.init, h, Pc.holds] at hi
  handed := rfl
  cap := rfl

/-- What the sequential engine over the log says of a state: the ends have handed on exactly
the completions it yields, and every key no end holds has its entry. -/
def Sys.Follows (s : Sys K V I) : Prop :=
  s.handed = (s.engine live m₀).2 ∧
    ∀ k, s.Free k → s.table.lookupElem k = (s.engine live m₀).1.lookupElem k

/-- Concurrent invocations on a pairing table: over every schedule in which no invocation acts on
a key while an end on that key is between its lookup and its delete, and every begin finds room,
the state follows the sequential engine over the ops in the order they took effect, and that
order keeps each invocation's ops in program order. -/
theorem clean_runs_follow_engine (invs : List (List (PairOp K V I))) (sched : List Nat)
    (h : CleanRun live (Sys.init m₀ invs) sched) :
    (sysRun live (Sys.init m₀ invs) sched).Follows live m₀ ∧
      ProgramOrder invs (sysRun live (Sys.init m₀ invs) sched) := by
  have hinv := inv_sysRun _ sched (inv_init live m₀ invs) h
  exact ⟨⟨hinv.handed, hinv.agree⟩, programOrder_sysRun live _ sched (programOrder_init m₀ invs)⟩

/-- Processes 1 and 2 each enter a syscall and exit it; the four invocations run at once. -/
def twoProcesses : List (List (PairOp U32 U64 U64)) :=
  [syscallDissect.ops (.sysEnter 0x100000001 1), syscallDissect.ops (.sysEnter 0x200000002 2),
    syscallDissect.ops (.sysExit 0x100000001 5 0), syscallDissect.ops (.sysExit 0x200000002 9 1)]

/-- Both exits look up before either deletes; their keys differ, so the schedule is clean. -/
theorem two_processes_interleaved_follow_engine :
    CleanRun syscallDissect.live (Sys.init (syscallDissect.start SyscallDissect.init) twoProcesses)
        [0, 1, 2, 3, 2, 3] ∧
      (sysRun syscallDissect.live (Sys.init (syscallDissect.start SyscallDissect.init) twoProcesses)
          [0, 1, 2, 3, 2, 3]).Follows syscallDissect.live (syscallDissect.start SyscallDissect.init) ∧
      ProgramOrder twoProcesses (sysRun syscallDissect.live
        (Sys.init (syscallDissect.start SyscallDissect.init) twoProcesses) [0, 1, 2, 3, 2, 3]) :=
  have h : CleanRun syscallDissect.live
      (Sys.init (syscallDissect.start SyscallDissect.init) twoProcesses) [0, 1, 2, 3, 2, 3] := by
    decide
  ⟨h, clean_runs_follow_engine _ _ _ _ h⟩

end Engine

/-! ## Run one at a time, the invocations are the sequential engine -/

section OneAtATime

variable {K V I : Type} [DecidableEq K] (live : V → Bool)

/-- The schedule that runs invocations `i`, `i + 1`, … one after another, each for twice its
number of ops: enough steps for every op and every delete. -/
def oneAtATimeFrom (i : Nat) : List (List (PairOp K V I)) → List Nat
  | [] => []
  | ops :: invs => List.replicate (2 * ops.length) i ++ oneAtATimeFrom (i + 1) invs

/-- The one-at-a-time schedule of all the invocations. -/
def oneAtATime (invs : List (List (PairOp K V I))) : List Nat := oneAtATimeFrom 0 invs

/-- Schedules compose: the second part runs from the state the first leaves. -/
theorem sysRun_append (s : Sys K V I) (a b : List Nat) :
    sysRun live s (a ++ b) = sysRun live (sysRun live s a) b := List.foldl_append _ _ _ _

/-- A step of a finished invocation changes nothing. -/
theorem sysRun_replicate_done {s : Sys K V I} {i : Nat} (hp : s.threads[i]? = some (.ready [])) :
    ∀ n, sysRun live s (List.replicate n i) = s
  | 0 => rfl
  | n + 1 => by
    have hs : sysStep live s i = s := by
      cases s
      simp only [sysStep] at hp ⊢
      simp [hp, threadStep, set_of_getElem? hp]
    rw [List.replicate_succ, sysRun, List.foldl_cons, hs]
    exact sysRun_replicate_done hp n

/-- One op of an invocation run alone: one step, or two for an end that finds a live entry and
deletes it, do what the engine does with the op. -/
theorem sysRun_replicate_op {s : Sys K V I} {i : Nat} {op : PairOp K V I}
    {ops : List (PairOp K V I)} (hp : s.threads[i]? = some (.ready (op :: ops))) :
    ∃ c ≤ 2, sysRun live s (List.replicate c i) =
      ⟨pairStep live s.table op, s.threads.set i (.ready ops), s.log ++ [(i, op)],
        s.handed ++ (pairYield live s.table op).toList⟩ := by
  cases op with
  | begin k v => exact ⟨1, by omega, by simp [sysRun, sysStep, hp, threadStep, pairStep, pairYield]⟩
  | finish k now info =>
    cases hv : s.table.lookupElem k with
    | none => exact ⟨1, by omega, by simp [sysRun, sysStep, hp, threadStep, pairStep, pairYield, hv]⟩
    | some v =>
      cases hl : live v
      · exact ⟨1, by omega, by simp [sysRun, sysStep, hp, threadStep, pairStep, pairYield, hv, hl]⟩
      · exact ⟨2, le_rfl, by simp [sysRun, sysStep, hp, threadStep, pairStep, pairYield, hv, hl,
          List.getElem?_set, (List.getElem?_eq_some_iff.mp hp).1]⟩

/-- Run alone for at least twice its number of ops, an invocation does what the engine does
with its ops, and finishes. -/
theorem sysRun_replicate_ready :
    ∀ (ops : List (PairOp K V I)) (s : Sys K V I) (i n : Nat), 2 * ops.length ≤ n →
      s.threads[i]? = some (.ready ops) →
      sysRun live s (List.replicate n i) =
        ⟨(pairRun live s.table ops).1, s.threads.set i (.ready []), s.log ++ ops.map (i, ·),
          s.handed ++ (pairRun live s.table ops).2⟩
  | [], s, i, n, _, hp => by
    rw [sysRun_replicate_done live hp, set_of_getElem? hp]
    simp [pairRun]
  | op :: ops, s, i, n, hn, hp => by
    obtain ⟨c, hc, hrun⟩ := sysRun_replicate_op live hp
    rw [List.length_cons] at hn
    rw [show n = c + (n - c) by omega, List.replicate_add, sysRun_append, hrun,
      sysRun_replicate_ready ops _ i (n - c) (by omega)
        (by simp [List.getElem?_set, (List.getElem?_eq_some_iff.mp hp).1])]
    simp [pairRun]

/-- Invocations `i`, `i + 1`, … not started, run one at a time, do what the engine does with
all their ops in turn. -/
theorem sysRun_oneAtATimeFrom :
    ∀ (invs : List (List (PairOp K V I))) (s : Sys K V I) (i : Nat),
      (∀ j ops, invs[j]? = some ops → s.threads[i + j]? = some (.ready ops)) →
      (sysRun live s (oneAtATimeFrom i invs)).table = (pairRun live s.table invs.flatten).1 ∧
        (sysRun live s (oneAtATimeFrom i invs)).handed =
          s.handed ++ (pairRun live s.table invs.flatten).2 ∧
        (sysRun live s (oneAtATimeFrom i invs)).log.map Prod.snd =
          s.log.map Prod.snd ++ invs.flatten
  | [], s, _, _ => by simp [oneAtATimeFrom, sysRun, pairRun]
  | ops :: invs, s, i, hth => by
    have hp : s.threads[i]? = some (.ready ops) := hth 0 ops (by simp)
    rw [oneAtATimeFrom, sysRun_append, sysRun_replicate_ready live ops s i _ le_rfl hp]
    obtain ⟨h₁, h₂, h₃⟩ := sysRun_oneAtATimeFrom invs
      ⟨(pairRun live s.table ops).1, s.threads.set i (.ready []), s.log ++ ops.map (i, ·),
        s.handed ++ (pairRun live s.table ops).2⟩ (i + 1) (getElem?_set_succ hp _ hth)
    simp only [List.flatten_cons, pairRun_append]
    refine ⟨h₁, ?_, ?_⟩
    · rw [h₂, List.append_assoc]
    · rw [h₃]
      simp [List.map_map, Function.comp_def]

/-- Run one at a time from the table `m`, the invocations leave the table the engine leaves
after all their ops in turn, and the ends hand on exactly the completions it yields. -/
theorem sysRun_oneAtATime (m : BpfMap K V) (invs : List (List (PairOp K V I))) :
    (sysRun live (Sys.init m invs) (oneAtATime invs)).table = (pairRun live m invs.flatten).1 ∧
      (sysRun live (Sys.init m invs) (oneAtATime invs)).handed = (pairRun live m invs.flatten).2 := by
  obtain ⟨h₁, h₂, -⟩ := sysRun_oneAtATimeFrom live invs (Sys.init m invs) 0 fun j ops h => by
    simp [Sys.init, h]
  exact ⟨h₁, by simpa [Sys.init] using h₂⟩

/-- A handler pair's invocations, run one at a time on its pairing table, leave the pairing
table of its sequential run and hand on that run's completions: the sequential model is this
one at the schedules that never interleave. -/
theorem oneAtATime_is_sequential_run {S E A X R : Type} [DecidableEq A]
    (P : LatencyProgram S E K V I A X R) (s : S) (es : List E) :
    (sysRun P.live (Sys.init (P.start s) (es.map P.ops)) (oneAtATime (es.map P.ops))).table =
        P.start (P.run s es) ∧
      (sysRun P.live (Sys.init (P.start s) (es.map P.ops)) (oneAtATime (es.map P.ops))).handed =
        P.completions s es := by
  rw [(P.run_tables s es).1, LatencyProgram.completions, LatencyProgram.opsOf, List.flatMap]
  exact sysRun_oneAtATime P.live (P.start s) (es.map P.ops)

end OneAtATime

end XtopEbpf.PairingConcurrent
