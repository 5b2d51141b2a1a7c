import XtopEbpf.Accumulate
import Mathlib.Algebra.BigOperators.Group.List
import Mathlib.Algebra.Order.BigOperators.Group.List

/-!
# What an accumulation record summarizes

A record of an accumulation table stands for the samples merged into it: its
additive fields are sums of per-sample increments modulo the field's width,
its max fields the largest sample value, and `tcprtt.c`'s `min_us` the
smallest. A `Rule` names one such field and how it follows the samples; a
handler's merge and insert branches `Respect` a rule when each treats the
field as the rule's fold does. From that alone, over every run with no insert
dropped, each record satisfies its rules over its key's admitted samples
(`summaryLaw`); over every run, full tables included, each record satisfies
them over the samples merged since its insert (`sinceInsertLaw`), so its
additive fields grow while below their width (`growthLaw`), and a full table
and a present key behave as `capacityLaw` says. Which fields a record has, and which rule each follows,
is stated next to each handler.
-/

namespace XtopEbpf.Summary

open Runtime Accumulate

/-- One summary field of a record and how it follows the samples merged into it. -/
inductive Rule (X R : Type) where
  /-- An additive `w`-bit field: the sum of the samples' increments modulo `2^w`. -/
  | sum (w : Nat) (field : R → Nat) (inc : X → Nat)
  /-- A max field: the largest sample value. -/
  | max (field : R → Nat) (val : X → Nat)
  /-- A min field kept with 0 as "unset": the smallest sample value, all of them positive. -/
  | min (field : R → Nat) (val : X → Nat)

namespace Rule

variable {X R : Type}

/-- The field a rule is about. -/
def field : Rule X R → R → Nat
  | .sum _ f _ | .max f _ | .min f _ => f

/-- The rule holds of record `r` for the samples `S` merged into it. -/
def Holds : Rule X R → List X → R → Prop
  | .sum w f inc, S, r => f r = (S.map inc).sum % 2 ^ w
  | .max f v, S, r => (∀ x ∈ S, v x ≤ f r) ∧ ∃ x ∈ S, f r = v x
  | .min f v, S, r => (∀ x ∈ S, f r ≤ v x) ∧ ∃ x ∈ S, f r = v x

/-- The insert branch `new` and the merge branch `merge` treat the field as the rule folds it. -/
def Respects (merge : X → R → R) (new : X → R) : Rule X R → Prop
  | .sum w f inc => ∀ x r, f (new x) = inc x % 2 ^ w ∧ f (merge x r) = (f r + inc x) % 2 ^ w
  | .max f v => ∀ x r, f (new x) = v x ∧ f (merge x r) = Max.max (f r) (v x)
  | .min f v => ∀ x r, 0 < v x ∧ f (new x) = v x ∧
      f (merge x r) = if f r = 0 then v x else Min.min (f r) (v x)

section Fold

variable {merge : X → R → R} {new : X → R} {ρ : Rule X R}

/-- The record the insert branch builds satisfies every respected rule for its one sample. -/
theorem holds_new (h : ρ.Respects merge new) (x : X) : ρ.Holds [x] (new x) := by
  cases ρ with
  | sum w f inc => simp [Holds, (h x (new x)).1]
  | max f v => simp [Holds, (h x (new x)).1]
  | min f v => simp [Holds, (h x (new x)).2.1]

/-- Merging one more sample keeps every respected rule. -/
theorem holds_merge (h : ρ.Respects merge new) {S : List X} {r : R} (hS : ρ.Holds S r) (y : X) :
    ρ.Holds (S ++ [y]) (merge y r) := by
  cases ρ with
  | sum w f inc =>
    simp only [Holds] at hS ⊢
    rw [(h y r).2, hS, Nat.mod_add_mod, List.map_append, List.sum_append]
    simp
  | max f v =>
    obtain ⟨hle, x, hx, hfx⟩ := hS
    rw [Holds, (h y r).2]
    refine ⟨fun z hz => ?_, ?_⟩
    · rcases List.mem_append.mp hz with hz | hz
      · exact le_trans (hle z hz) (Nat.le_max_left _ _)
      · simp only [List.mem_singleton] at hz
        exact hz ▸ Nat.le_max_right _ _
    · rcases Nat.le_total (f r) (v y) with hv | hv
      · exact ⟨y, by simp, Nat.max_eq_right hv⟩
      · exact ⟨x, List.mem_append_left _ hx, (Nat.max_eq_left hv).trans hfx⟩
  | min f v =>
    obtain ⟨hle, x, hx, hfx⟩ := hS
    have hpos : f r ≠ 0 := by have := (h x r).1; omega
    rw [Holds, (h y r).2.2, if_neg hpos]
    refine ⟨fun z hz => ?_, ?_⟩
    · rcases List.mem_append.mp hz with hz | hz
      · exact le_trans (Nat.min_le_left _ _) (hle z hz)
      · simp only [List.mem_singleton] at hz
        exact hz ▸ Nat.min_le_right _ _
    · rcases Nat.le_total (f r) (v y) with hv | hv
      · exact ⟨x, List.mem_append_left _ hx, (Nat.min_eq_left hv).trans hfx⟩
      · exact ⟨y, by simp, Nat.min_eq_right hv⟩

/-- Merging a list of samples, one after another, keeps every respected rule. -/
theorem holds_foldl (h : ρ.Respects merge new) :
    ∀ (ys : List X) {S : List X} {r : R}, ρ.Holds S r →
      ρ.Holds (S ++ ys) (ys.foldl (fun r y => merge y r) r)
  | [], _, _, hS => by simpa using hS
  | y :: ys, S, _, hS => by
    simpa using holds_foldl h ys (holds_merge h hS y)

end Fold

end Rule


section Absorb

variable {X R : Type} (merge : X → R → R) (new : X → R)

/-- Once a key has a record, absorbing samples merges them one after another. -/
theorem foldl_absorb_some :
    ∀ (ys : List X) (r : R), ys.foldl (absorb merge new) (some r) =
      some (ys.foldl (fun r y => merge y r) r)
  | [], _ => rfl
  | y :: ys, r => foldl_absorb_some ys (merge y r)

/-- Into an absent record, the first sample is inserted and the rest merged. -/
theorem foldl_absorb_none (x : X) (xs : List X) :
    (x :: xs).foldl (absorb merge new) none = some (xs.foldl (fun r y => merge y r) (new x)) :=
  foldl_absorb_some merge new xs (new x)

/-- The insert branch builds what the merge branch makes of `zero`, in every rule's field. -/
def InsertAgrees (zero : R) (rules : List (Rule X R)) : Prop :=
  ∀ x, ∀ ρ ∈ rules, ρ.field (new x) = ρ.field (merge x zero)

/-- Branches that respect their rules agree on a record whose rule fields are all zero. -/
theorem insertAgrees {zero : R} {rules : List (Rule X R)} (hz : ∀ ρ ∈ rules, ρ.field zero = 0)
    (h : ∀ ρ ∈ rules, ρ.Respects merge new) : InsertAgrees merge new zero rules := by
  intro x ρ hρ
  have hz := hz ρ hρ
  have h := h ρ hρ
  cases ρ with
  | sum w f inc => simp only [Rule.field] at hz ⊢; rw [(h x zero).1, (h x zero).2, hz, Nat.zero_add]
  | max f v => simp only [Rule.field] at hz ⊢; rw [(h x zero).1, (h x zero).2, hz]; omega
  | min f v => simp only [Rule.field] at hz ⊢; rw [(h x zero).2.1, (h x zero).2.2, if_pos hz]

end Absorb

section Stores

variable {w : Nat}

/-- `if (v > f) f = v` leaves the larger of the two. -/
theorem toNat_maxStore (v f : BitVec w) : (if f < v then v else f).toNat = max f.toNat v.toNat := by
  simp only [BitVec.lt_def, apply_ite BitVec.toNat]
  split_ifs <;> omega

/-- `if (v < f || f == 0) f = v` leaves `v` in an unset field, else the smaller of the two. -/
theorem toNat_minStore (v f : BitVec w) :
    (if v < f ∨ f = BitVec.ofNat w 0 then v else f).toNat =
      if f.toNat = 0 then v.toNat else min f.toNat v.toNat := by
  simp only [BitVec.lt_def, BitVec.toNat_eq, BitVec.toNat_ofNat, Nat.zero_mod,
    apply_ite BitVec.toNat]
  split_ifs <;> omega

end Stores

section Laws

variable {S E K X R : Type} [DecidableEq K] (P : AccumProgram S E K X R)

/-- The samples of a run in two parts. -/
theorem samples_append : ∀ (s : S) (es es' : List E),
    P.samples s (es ++ es') = P.samples s es ++ P.samples (P.run s es) es'
  | _, [], _ => rfl
  | s, e :: es, es' => by
    rw [List.cons_append, AccumProgram.samples, AccumProgram.samples,
      samples_append (P.step s e) es es', List.append_assoc]
    rfl

/-- The samples of a key in a run in two parts. -/
theorem samplesOf_append (s : S) (es es' : List E) (k : K) :
    P.samplesOf s (es ++ es') k = P.samplesOf s es k ++ P.samplesOf (P.run s es) es' k := by
  simp [AccumProgram.samplesOf, samples_append]

/-- What drops no insert over a run drops none over its first part. -/
theorem noDrop_of_append {merge : X → R → R} {new : X → R} :
    ∀ (m : BpfMap K R) (xs ys : List (K × X)), NoDrop merge new m (xs ++ ys) → NoDrop merge new m xs
  | _, [], _, _ => trivial
  | _, _ :: xs, ys, ⟨h, hrest⟩ => ⟨h, noDrop_of_append _ xs ys hrest⟩

/-- The summary law of a handler from state `init` for the rules of its record: over every
run with no insert dropped, a key has a record exactly when a sample was admitted for it, and
that record satisfies every rule over the key's admitted samples. -/
def SummaryLaw (init : S) (rules : List (Rule X R)) : Prop :=
  ∀ es, NoDrop P.merge P.new (P.accum init) (P.samples init es) → ∀ k,
    ((P.accum (P.run init es)).lookupElem k = none ↔ P.samplesOf init es k = []) ∧
    ∀ r, (P.accum (P.run init es)).lookupElem k = some r →
      ∀ ρ ∈ rules, ρ.Holds (P.samplesOf init es k) r

/-- A handler whose branches respect its rules satisfies its summary law from an empty table. -/
theorem summaryLaw (init : S) (hinit : ∀ k, (P.accum init).lookupElem k = none)
    {rules : List (Rule X R)} (h : ∀ ρ ∈ rules, ρ.Respects P.merge P.new) :
    SummaryLaw P init rules := by
  intro es hnd k
  rw [P.lookupElem_run init es hnd k, hinit k]
  cases hS : P.samplesOf init es k with
  | nil => simp
  | cons x xs =>
    rw [foldl_absorb_none]
    refine ⟨by simp, fun r hr ρ hρ => ?_⟩
    cases hr
    simpa using Rule.holds_foldl (h ρ hρ) xs (Rule.holds_new (h ρ hρ) x)

/-- A handler's record law: its summary law, and its insert branch agreeing with a merge into
the all-zero record `{}` in every rule's field. -/
def RecordLaw [Inhabited R] (init : S) (rules : List (Rule X R)) : Prop :=
  SummaryLaw P init rules ∧ InsertAgrees P.merge P.new default rules

/-- A handler whose branches respect its rules, all zero in `{}`, satisfies its record law. -/
theorem recordLaw [Inhabited R] (init : S) (hinit : ∀ k, (P.accum init).lookupElem k = none)
    {rules : List (Rule X R)} (h : ∀ ρ ∈ rules, ρ.Respects P.merge P.new)
    (hz : ∀ ρ ∈ rules, ρ.field default = 0) : RecordLaw P init rules :=
  ⟨summaryLaw P init hinit h, insertAgrees P.merge P.new hz h⟩

/-- An upsert at another key leaves a key's record alone, whether or not it fits. -/
theorem lookupElem_upsert_of_ne {m : BpfMap K R} {k k' : K} (merge : R → R) (new : R)
    (hk : k' ≠ k) : (upsert m k' merge new).lookupElem k = m.lookupElem k := by
  by_cases hroom : m.HasRoom k'
  · rw [lookupElem_upsert _ _ hroom, if_neg (Ne.symm hk)]
  · rw [upsert_of_not_hasRoom _ _ hroom]

/-- Folding samples into a key that has a record merges the key's samples into it. -/
theorem lookupElem_foldl_of_lookupElem :
    ∀ (m : BpfMap K R) (xs : List (K × X)) (k : K) (r : R), m.lookupElem k = some r →
      (xs.foldl (upsertSample P.merge P.new) m).lookupElem k =
        some (((xs.filter (·.1 = k)).map (·.2)).foldl (fun r x => P.merge x r) r)
  | _, [], _, _, h => h
  | m, kx :: xs, k, r, h => by
    rw [List.foldl_cons]
    by_cases hk : kx.1 = k
    · have hm : (upsertSample P.merge P.new m kx).lookupElem k = some (P.merge kx.2 r) := by
        rw [upsertSample, upsert_of_lookupElem _ _ (hk ▸ h), hk,
          BpfMap.writeElem_of_mem _ _ _ (BpfMap.mem_iff_lookupElem.mpr (by simp [h])),
          BpfMap.lookupElem_put, if_pos rfl]
      simpa [hk] using lookupElem_foldl_of_lookupElem _ xs k _ hm
    · have hm : (upsertSample P.merge P.new m kx).lookupElem k = some r := by
        rw [upsertSample, lookupElem_upsert_of_ne _ _ hk, h]
      simpa [hk] using lookupElem_foldl_of_lookupElem _ xs k _ hm

/-- Samples whose keys are all absent from a full table leave it as it was. -/
theorem foldl_of_not_hasRoom :
    ∀ (m : BpfMap K R) (xs : List (K × X)), (∀ kx ∈ xs, ¬ m.HasRoom kx.1) →
      xs.foldl (upsertSample P.merge P.new) m = m
  | _, [], _ => rfl
  | m, kx :: xs, h => by
    rw [List.foldl_cons, upsertSample, upsert_of_not_hasRoom _ _ (h kx (by simp))]
    exact foldl_of_not_hasRoom m xs fun y hy => h y (by simp [hy])

/-- Runs never change the accumulation table's capacity. -/
theorem maxEntries_accum_run (s : S) (es : List E) :
    (P.accum (P.run s es)).maxEntries = (P.accum s).maxEntries := by
  rw [P.accum_run]
  generalize P.samples s es = xs
  generalize P.accum s = m
  induction xs generalizing m with
  | nil => rfl
  | cons kx xs ih => rw [List.foldl_cons, ih, upsertSample, maxEntries_upsert]

/-- The capacity law of a handler's accumulation table of `cap` entries: no run fills it past
`cap`; an invocation whose keys are absent from a full table changes nothing; and a record that
exists is only ever merged into, never deleted or rebuilt by an insert. -/
def CapacityLaw (init : S) (cap : Nat) : Prop :=
  (∀ es, (P.accum (P.run init es)).size ≤ cap) ∧
  (∀ s e, (∀ kx ∈ P.admitted s e, ¬ (P.accum s).HasRoom kx.1) → P.accum (P.step s e) = P.accum s) ∧
  ∀ s e k r, (P.accum s).lookupElem k = some r →
    (P.accum (P.step s e)).lookupElem k =
      some ((((P.admitted s e).filter (·.1 = k)).map (·.2)).foldl (fun r x => P.merge x r) r)

/-- Every handler satisfies the capacity law of its table's declared size. -/
theorem capacityLaw (init : S) : CapacityLaw P init (P.accum init).maxEntries := by
  refine ⟨fun es => ?_, fun s e h => ?_, fun s e k r h => ?_⟩
  · rw [← maxEntries_accum_run P init es]
    exact BpfMap.size_le_maxEntries _
  · rw [P.step_accum]
    exact foldl_of_not_hasRoom P _ _ h
  · rw [P.step_accum]
    exact lookupElem_foldl_of_lookupElem P _ _ k r h

/-- The sum of a field over a table's records. -/
def recordSum (f : R → Nat) (m : BpfMap K R) : Nat := (m.elems.entries.map fun e => f e.2).sum

/-- Over distinct keys, the samples of each key together are at most all the samples. -/
theorem sum_length_filter_le : ∀ (ks : List K), ks.Nodup → ∀ xs : List (K × X),
    (ks.map fun k => (xs.filter (·.1 = k)).length).sum ≤ xs.length
  | [], _, _ => by simp
  | k :: ks, hks, xs => by
    obtain ⟨hk, hks⟩ := List.nodup_cons.mp hks
    have hrest : (ks.map fun k' => (xs.filter (·.1 = k')).length) =
        ks.map fun k' => ((xs.filter fun x => !decide (x.1 = k)).filter (·.1 = k')).length :=
      List.map_congr_left fun k' hk' => by
        rw [List.filter_filter]
        congr 1
        refine List.filter_congr fun x _ => ?_
        by_cases hx : x.1 = k' <;> simp [hx]
        exact fun e => hk (e ▸ hk')
    have ih := sum_length_filter_le ks hks (xs.filter fun x => !decide (x.1 = k))
    have hsplit := xs.length_eq_length_filter_add fun x => decide (x.1 = k)
    rw [List.map_cons, List.sum_cons, hrest]
    omega

/-- Each record of `m` is what the branches make of a nonempty final segment of its key's
samples among `xs`, in every rule. -/
def Summarizes (rules : List (Rule X R)) (m : BpfMap K R) (xs : List (K × X)) : Prop :=
  ∀ k r, m.lookupElem k = some r →
    ∃ T, T ≠ [] ∧ T <:+ (xs.filter (·.1 = k)).map (·.2) ∧ ∀ ρ ∈ rules, ρ.Holds T r

/-- One sample folded in, full table or not, keeps every record a summary of a final segment
of its key's samples: a merge extends the segment, an insert starts it, a drop leaves it. -/
theorem summarizes_upsertSample {rules : List (Rule X R)}
    (h : ∀ ρ ∈ rules, ρ.Respects P.merge P.new) {m : BpfMap K R} {xs : List (K × X)}
    (hm : Summarizes rules m xs) (kx : K × X) :
    Summarizes rules (upsertSample P.merge P.new m kx) (xs ++ [kx]) := by
  intro k r hr
  by_cases hk : kx.1 = k
  · subst hk
    have hseg : ((xs ++ [kx]).filter (·.1 = kx.1)).map (·.2) =
        (xs.filter (·.1 = kx.1)).map (·.2) ++ [kx.2] := by simp
    rw [hseg]
    rcases lookupElem_upsert_self_cases hr with ⟨r₀, h₀, rfl⟩ | ⟨-, rfl⟩
    · obtain ⟨T, -, ⟨t, ht⟩, hT⟩ := hm _ _ h₀
      exact ⟨T ++ [kx.2], by simp, ⟨t, by rw [← ht, List.append_assoc]⟩,
        fun ρ hρ => Rule.holds_merge (h ρ hρ) (hT ρ hρ) _⟩
    · exact ⟨[kx.2], by simp, List.suffix_append _ _, fun ρ hρ => Rule.holds_new (h ρ hρ) _⟩
  · have hseg : ((xs ++ [kx]).filter (·.1 = k)).map (·.2) = (xs.filter (·.1 = k)).map (·.2) := by
      simp [hk]
    rw [upsertSample, lookupElem_upsert_of_ne _ _ hk] at hr
    rw [hseg]
    exact hm k r hr

/-- Folding samples in keeps every record a summary of a final segment of its key's samples. -/
theorem summarizes_foldl {rules : List (Rule X R)} (h : ∀ ρ ∈ rules, ρ.Respects P.merge P.new) :
    ∀ (xs ys : List (K × X)) (m : BpfMap K R), Summarizes rules m xs →
      Summarizes rules (ys.foldl (upsertSample P.merge P.new) m) (xs ++ ys)
  | xs, [], _, hm => by simpa using hm
  | xs, y :: ys, m, hm => by
    rw [List.foldl_cons, ← List.singleton_append, ← List.append_assoc]
    exact summarizes_foldl h (xs ++ [y]) ys _ (summarizes_upsertSample P h hm y)

/-- The since-insert law of a handler: over every run, full tables included, every record is
what the branches make of a nonempty final segment of its key's admitted samples, so the samples
a record misses are all older than the ones it summarizes. -/
def SinceInsertLaw (init : S) (rules : List (Rule X R)) : Prop :=
  ∀ es k r, (P.accum (P.run init es)).lookupElem k = some r →
    ∃ T, T ≠ [] ∧ T <:+ P.samplesOf init es k ∧ ∀ ρ ∈ rules, ρ.Holds T r

/-- A handler whose branches respect its rules satisfies its since-insert law from an empty
table. -/
theorem sinceInsertLaw (init : S) (hinit : ∀ k, (P.accum init).lookupElem k = none)
    {rules : List (Rule X R)} (h : ∀ ρ ∈ rules, ρ.Respects P.merge P.new) :
    SinceInsertLaw P init rules := by
  intro es
  rw [P.accum_run]
  exact summarizes_foldl P h [] _ _ fun k r hr => by simp [hinit k] at hr

/-- The growth law of a handler's additive fields: along every run, full tables included, a
record once present stays present, and each additive field is the sum of the increments of the
samples merged into the record since its insert, modulo `2^w`: the segment `T` the record holds
after the first part of the run, then `T` and the key's samples of the second part. While that
sum stays below `2^w` the field never decreases. -/
def GrowthLaw (init : S) (rules : List (Rule X R)) : Prop :=
  ∀ es es' k r, (P.accum (P.run init es)).lookupElem k = some r →
    ∃ T r', T ≠ [] ∧ T <:+ P.samplesOf init es k ∧
      (P.accum (P.run init (es ++ es'))).lookupElem k = some r' ∧
      ∀ w f inc, Rule.sum w f inc ∈ rules →
        f r = (T.map inc).sum % 2 ^ w ∧
        f r' = ((T ++ P.samplesOf (P.run init es) es' k).map inc).sum % 2 ^ w ∧
        (((T ++ P.samplesOf (P.run init es) es' k).map inc).sum < 2 ^ w → f r ≤ f r')

/-- A handler whose branches respect its rules satisfies its growth law from an empty table: a
present key's later samples are all merged into its record. -/
theorem growthLaw (init : S) (hinit : ∀ k, (P.accum init).lookupElem k = none)
    {rules : List (Rule X R)} (h : ∀ ρ ∈ rules, ρ.Respects P.merge P.new) :
    GrowthLaw P init rules := by
  intro es es' k r hr
  obtain ⟨T, hT, hsuf, hTr⟩ := sinceInsertLaw P init hinit h es k r hr
  have hr' : (P.accum (P.run init (es ++ es'))).lookupElem k =
      some ((P.samplesOf (P.run init es) es' k).foldl (fun r x => P.merge x r) r) := by
    rw [AccumProgram.run, List.foldl_append, ← AccumProgram.run, ← AccumProgram.run,
      P.accum_run (P.run init es) es']
    exact lookupElem_foldl_of_lookupElem P _ _ k r hr
  refine ⟨T, _, hT, hsuf, hr', fun w f inc hρ => ?_⟩
  have h₁ : f r = (T.map inc).sum % 2 ^ w := hTr _ hρ
  have h₂ : f _ = ((T ++ P.samplesOf (P.run init es) es' k).map inc).sum % 2 ^ w :=
    Rule.holds_foldl (h _ hρ) _ (hTr _ hρ)
  refine ⟨h₁, h₂, fun hlt => ?_⟩
  rw [List.map_append, List.sum_append] at hlt h₂
  rw [h₁, h₂, Nat.mod_eq_of_lt hlt, Nat.mod_eq_of_lt (by omega)]
  omega

/-- Summed over the records, a count never exceeds the samples the run offered, full tables
included: each record counts a final segment of its key's samples, and the keys are distinct. -/
theorem recordSum_le_samples (init : S) (hinit : ∀ k, (P.accum init).lookupElem k = none)
    {rules : List (Rule X R)} (h : ∀ ρ ∈ rules, ρ.Respects P.merge P.new) {w : Nat}
    {f : R → Nat} (hρ : Rule.sum w f (fun _ => 1) ∈ rules) (es : List E) :
    recordSum f (P.accum (P.run init es)) ≤ (P.samples init es).length := by
  have hle : ∀ e ∈ (P.accum (P.run init es)).elems.entries,
      f e.2 ≤ ((P.samples init es).filter (·.1 = e.1)).length := fun e he => by
    obtain ⟨T, -, hT, hTr⟩ := sinceInsertLaw P init hinit h es e.1 e.2
      (AList.mem_lookup_iff.mpr he)
    have hf : f e.2 = T.length % 2 ^ w := by simpa [Rule.Holds] using hTr _ hρ
    calc f e.2 = T.length % 2 ^ w := hf
      _ ≤ T.length := Nat.mod_le _ _
      _ ≤ (P.samplesOf init es e.1).length := hT.length_le
      _ = ((P.samples init es).filter (·.1 = e.1)).length := by simp [AccumProgram.samplesOf]
  calc recordSum f (P.accum (P.run init es))
      ≤ ((P.accum (P.run init es)).elems.keys.map
          fun k => ((P.samples init es).filter (·.1 = k)).length).sum := by
        rw [AList.keys, List.keys, List.map_map]
        exact List.sum_le_sum hle
    _ ≤ (P.samples init es).length :=
        sum_length_filter_le _ (P.accum (P.run init es)).elems.nodupKeys _

end Laws

end XtopEbpf.Summary
