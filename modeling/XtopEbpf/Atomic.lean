import XtopEbpf.Summary

/-!
# Concurrent invocations of one upsert

Invocations of a handler run on several CPUs at once and share its
accumulation table. Each runs the insert-or-merge code in atomic steps: the
map lookup, the `BPF_NOEXIST` insert, and in the merge branch every
`__sync_fetch_and_add`, plain store and plain load of a record field, made
through the pointer the lookup returned. A `Pc` says where one invocation
stands and a schedule picks which one steps next, so the runs of `sysRun` are
all the interleavings. In every reachable state (`inv_sysRun`) an invocation
that found or inserted a record keeps it present, each additive field is the
sum of what the invocations have applied so far, each max or min field holds
the value of an invocation that reached the record, and exactly one
invocation inserted each present record. Two invocations that both miss an
absent key race to insert it: over every schedule one inserts the new record of
its sample and the other's sample is lost, or a full table refuses both
(`insertRace`). Run one invocation at a time
(`inTurn`), the accesses leave a table no helper tells apart from the one the
sequential model leaves (`serialLaw`), so the sequential model is this one at
the schedules that never interleave.
-/

namespace XtopEbpf.Atomic

open Runtime Accumulate Summary

/-- One access of a merge branch to the record, through the pointer the lookup returned. -/
inductive Access (R : Type) where
  /-- `__sync_fetch_and_add(&val->f, c)` or a plain store `val->f = c`: one atomic step. -/
  | rmw (f : R → R)
  /-- `if (t₁ || t₂ || …) val->f = c`: one load for each test tried, then the store. -/
  | testStore (tests : List (R → Bool)) (store : R → R)

namespace Access

variable {R : Type}

/-- The access run alone. -/
def apply : Access R → R → R
  | rmw f, r => f r
  | testStore ts st, r => if ts.any (· r) then st r else r

/-- What the access writes when it writes. -/
def write : Access R → R → R
  | rmw f => f
  | testStore _ st => st

/-- What the access adds to the additive field `f`, read off the zeroed record. -/
def gain (f : R → Nat) (zero : R) : Access R → Nat
  | rmw g => f (g zero)
  | testStore _ _ => 0

end Access

/-- A merge branch run alone: its accesses one after another. -/
def seqApply {R : Type} (acc : List (Access R)) (r : R) : R := acc.foldl (fun r a => a.apply r) r

/-- How an invocation ended. -/
inductive Outcome where
  /-- The lookup found the record and the merge branch ran. -/
  | merged
  /-- The lookup missed and the `BPF_NOEXIST` insert succeeded. -/
  | inserted
  /-- The lookup missed and the insert failed: the key was inserted meanwhile, or no room. -/
  | lost
  deriving DecidableEq

/-- Where one invocation, on key `k` with sample `x`, stands. -/
inductive Pc (K X : Type) where
  /-- Before `bpf_map_lookup_elem`. -/
  | lookup (k : K) (x : X)
  /-- The lookup missed: before the `BPF_NOEXIST` update. -/
  | insert (k : K) (x : X)
  /-- The lookup found the record and `n` accesses are done; in access `n`, `probe` tests
  failed, and `armed` when one held and its store is due. -/
  | merging (k : K) (x : X) (n probe : Nat) (armed : Bool)
  /-- Returned. -/
  | done (k : K) (x : X) (o : Outcome)
  deriving DecidableEq

namespace Pc

variable {K X : Type} [DecidableEq K]

/-- The sample, if the invocation reached `k`'s record: its lookup found it, or it inserted it. -/
def joins (k : K) : Pc K X → Option X
  | merging k' x _ _ _ | done k' x .merged | done k' x .inserted => if k' = k then some x else none
  | _ => none

/-- One if the invocation inserted `k`'s record. -/
def inserts (k : K) : Pc K X → Nat
  | done k' _ .inserted => if k' = k then 1 else 0
  | _ => 0

@[simp] theorem joins_merging (k k' : K) (x : X) (n probe : Nat) (armed : Bool) :
    (merging k' x n probe armed).joins k = if k' = k then some x else none := rfl

@[simp] theorem joins_done_inserted (k k' : K) (x : X) :
    (done k' x .inserted).joins k = if k' = k then some x else none := rfl

@[simp] theorem inserts_insert (k k' : K) (x : X) : (insert k' x).inserts k = 0 := rfl

@[simp] theorem inserts_merging (k k' : K) (x : X) (n probe : Nat) (armed : Bool) :
    (merging k' x n probe armed).inserts k = 0 := rfl

@[simp] theorem inserts_done_inserted (k k' : K) (x : X) :
    (done k' x .inserted).inserts k = if k' = k then 1 else 0 := rfl

/-- The key and sample the invocation runs on. -/
def input : Pc K X → K × X
  | lookup k x | insert k x | merging k x _ _ _ | done k x _ => (k, x)

end Pc

/-- The shared table and every invocation's place. -/
structure Sys (K X R : Type) where
  /-- The accumulation table. -/
  table : BpfMap K R
  /-- The invocations. -/
  threads : List (Pc K X)

variable {K X R : Type} [DecidableEq K]

/-- A store through the pointer to `k`'s record. -/
def storeAt (m : BpfMap K R) (k : K) (f : R → R) : BpfMap K R :=
  match m.lookupElem k with
  | some r => m.writeElem k (f r)
  | none => m

/-- A store through the pointer changes that key's record only. -/
theorem lookupElem_storeAt (m : BpfMap K R) (k k' : K) (f : R → R) :
    (storeAt m k f).lookupElem k' = if k' = k then (m.lookupElem k).map f else m.lookupElem k' := by
  cases h : m.lookupElem k with
  | none =>
    simp only [storeAt, h]
    split_ifs with hk
    · rw [hk, h]; rfl
    · rfl
  | some r =>
    simp only [storeAt, h]
    rw [BpfMap.writeElem_of_mem _ _ _ (BpfMap.mem_iff_lookupElem.mpr (by simp [h])),
      BpfMap.lookupElem_put]
    rfl

section Steps

variable (acc : X → List (Access R)) (new : X → R)

/-- One atomic step of an invocation: `acc x` are the merge branch's accesses for sample `x`
and `new x` the record the insert branch builds. -/
def threadStep (m : BpfMap K R) : Pc K X → BpfMap K R × Pc K X
  | .lookup k x => (m, match m.lookupElem k with
      | some _ => .merging k x 0 0 false
      | none => .insert k x)
  | .insert k x =>
    let res := m.updateElem k (new x) .noexist
    (res.2, .done k x (if res.1 = 0 then .inserted else .lost))
  | .merging k x n probe armed =>
    match (acc x)[n]? with
    | none => (m, .done k x .merged)
    | some (.rmw f) => (storeAt m k f, .merging k x (n + 1) 0 false)
    | some (.testStore ts st) =>
      if armed then (storeAt m k st, .merging k x (n + 1) 0 false)
      else match ts[probe]? with
        | none => (m, .merging k x (n + 1) 0 false)
        | some t =>
          if (m.lookupElem k).elim false t then (m, .merging k x n probe true)
          else (m, .merging k x n (probe + 1) false)
  | .done k x o => (m, .done k x o)

/-- The scheduler runs one step of invocation `i`; an index past the last does nothing. -/
def sysStep (s : Sys K X R) (i : Nat) : Sys K X R :=
  match s.threads[i]? with
  | some p => ⟨(threadStep acc new s.table p).1, s.threads.set i (threadStep acc new s.table p).2⟩
  | none => s

/-- The state a schedule leads to. -/
def sysRun (s : Sys K X R) (sched : List Nat) : Sys K X R := sched.foldl (sysStep acc new) s

/-- A step of an invocation keeps its key and sample. -/
theorem input_threadStep (m : BpfMap K R) (p : Pc K X) : (threadStep acc new m p).2.input = p.input := by
  cases p <;> simp only [threadStep] <;> repeat' split
  all_goals rfl

/-- The scheduler keeps every invocation's key and sample. -/
theorem map_input_sysStep (s : Sys K X R) (i : Nat) :
    (sysStep acc new s i).threads.map Pc.input = s.threads.map Pc.input := by
  unfold sysStep
  cases hp : s.threads[i]? with
  | none => rfl
  | some p =>
    refine List.ext_getElem? fun j => ?_
    simp only [List.getElem?_map, getElem?_set_of_getElem? hp]
    split_ifs with hj
    · simp [hj, hp, input_threadStep]
    · rfl

/-- Every schedule keeps every invocation's key and sample. -/
theorem map_input_sysRun : ∀ (s : Sys K X R) (sched : List Nat),
    (sysRun acc new s sched).threads.map Pc.input = s.threads.map Pc.input
  | _, [] => rfl
  | s, i :: sched => (map_input_sysRun (sysStep acc new s i) sched).trans (map_input_sysStep acc new s i)

end Steps

/-- A table as the loader creates it, and invocations on `(key, sample)` not yet started. -/
def Sys.init (cap : Nat) (invs : List (K × X)) : Sys K X R :=
  ⟨.empty cap, invs.map fun kx => .lookup kx.1 kx.2⟩

/-- The samples of the invocations that reached `k`'s record. -/
def Sys.members (s : Sys K X R) (k : K) : List X := s.threads.filterMap (·.joins k)

section Set

variable {α β : Type} {p a : α}

/-- Replacing entry `i` swaps its term in a sum. -/
theorem sum_map_set (g : α → Nat) :
    ∀ {l : List α} {i : Nat}, l[i]? = some p → ((l.set i a).map g).sum + g p = (l.map g).sum + g a
  | [], _, h => by simp at h
  | b :: l, 0, h => by
    simp only [List.getElem?_cons_zero, Option.some.injEq] at h
    subst h
    simp only [List.set_cons_zero, List.map_cons, List.sum_cons]
    omega
  | b :: l, i + 1, h => by
    have ih := sum_map_set g (l := l) (i := i) (by simpa using h)
    simp only [List.set_cons_succ, List.map_cons, List.sum_cons]
    omega

/-- Replacing an entry by one with the same term keeps a sum. -/
theorem sum_map_set_of_eq (g : α → Nat) (hg : g a = g p) {l : List α} {i : Nat}
    (h : l[i]? = some p) : ((l.set i a).map g).sum = (l.map g).sum := by
  have := sum_map_set g (a := a) h
  omega

/-- Replacing an entry that had no image, or one with the same image, keeps every image. -/
theorem mem_filterMap_set (g : α → Option β) (hg : g p = none ∨ g a = g p) {y : β} :
    ∀ {l : List α} {i : Nat}, l[i]? = some p → y ∈ l.filterMap g → y ∈ (l.set i a).filterMap g
  | [], _, h, _ => by simp at h
  | b :: l, 0, h, hy => by
    simp only [List.getElem?_cons_zero, Option.some.injEq] at h
    subst h
    obtain ⟨q, hq, hgq⟩ := List.mem_filterMap.mp hy
    rcases List.mem_cons.mp hq with rfl | hq
    · rcases hg with hg | hg
      · simp [hg] at hgq
      · exact List.mem_filterMap.mpr ⟨a, List.mem_cons_self _ _, hg.trans hgq⟩
    · exact List.mem_filterMap.mpr ⟨q, List.mem_cons_of_mem _ hq, hgq⟩
  | b :: l, i + 1, h, hy => by
    obtain ⟨q, hq, hgq⟩ := List.mem_filterMap.mp hy
    rcases List.mem_cons.mp hq with rfl | hq
    · exact List.mem_filterMap.mpr ⟨q, List.mem_cons_self _ _, hgq⟩
    · obtain ⟨q', hq', hgq'⟩ := List.mem_filterMap.mp (mem_filterMap_set g hg (l := l) (i := i)
        (by simpa using h) (List.mem_filterMap.mpr ⟨q, hq, hgq⟩))
      exact List.mem_filterMap.mpr ⟨q', List.mem_cons_of_mem _ hq', hgq'⟩

/-- The new entry's image is among the images. -/
theorem mem_filterMap_set_self (g : α → Option β) {l : List α} {i : Nat} {y : β}
    (h : l[i]? = some p) (ha : g a = some y) : y ∈ (l.set i a).filterMap g :=
  List.mem_filterMap.mpr ⟨a, List.mem_set l i (List.getElem?_eq_some_iff.mp h).1 a, ha⟩

end Set

/-! ## The invariant -/

section Invariant

variable (acc : X → List (Access R)) (new : X → R) (zero : R) (rules : List (Rule X R))

/-- What an invocation has added to the additive field `f` of `k`'s record, `inc x` being what
the whole merge branch adds for sample `x`. -/
def contrib (f : R → Nat) (inc : X → Nat) (k : K) : Pc K X → Nat
  | .merging k' x n _ _ => if k' = k then (((acc x).take n).map (·.gain f zero)).sum else 0
  | .done k' x .merged | .done k' x .inserted => if k' = k then inc x else 0
  | _ => 0

@[simp] theorem contrib_insert (f : R → Nat) (inc : X → Nat) (k k' : K) (x : X) :
    contrib acc zero f inc k (.insert k' x) = 0 := rfl

@[simp] theorem contrib_merging (f : R → Nat) (inc : X → Nat) (k k' : K) (x : X)
    (n probe : Nat) (armed : Bool) : contrib acc zero f inc k (.merging k' x n probe armed) =
      if k' = k then (((acc x).take n).map (·.gain f zero)).sum else 0 := rfl

@[simp] theorem contrib_done_inserted (f : R → Nat) (inc : X → Nat) (k k' : K) (x : X) :
    contrib acc zero f inc k (.done k' x .inserted) = if k' = k then inc x else 0 := rfl

/-- The merge branch's accesses and the insert branch treat a field as its rule folds it: each
access adds a fixed amount to an additive field, `inc x` over the whole branch, and leaves a
max or min field alone or sets it to the sample's value. -/
def AccessesRespect : Rule X R → Prop
  | .sum w f inc => (∀ x, ∀ a ∈ acc x, ∀ r, f (a.write r) = (f r + a.gain f zero) % 2 ^ w) ∧
      (∀ x, ((acc x).map (·.gain f zero)).sum = inc x) ∧ ∀ x, f (new x) = inc x % 2 ^ w
  | .max f v | .min f v => (∀ x, ∀ a ∈ acc x, ∀ r, f (a.write r) = f r ∨ f (a.write r) = v x) ∧
      ∀ x, f (new x) = v x

/-- What holds of key `k` in every state the invocations can reach. -/
structure InvAt (k : K) (s : Sys K X R) : Prop where
  /-- An invocation that found or inserted the record sees it still present. -/
  present : ∀ p ∈ s.threads, (p.joins k).isSome → (s.table.lookupElem k).isSome
  /-- Each additive field is the sum of what the invocations have added. -/
  sums : ∀ r, s.table.lookupElem k = some r → ∀ w f inc, Rule.sum w f inc ∈ rules →
    f r = (s.threads.map (contrib acc zero f inc k)).sum % 2 ^ w
  /-- Each max or min field holds the value of an invocation that reached the record. -/
  extremes : ∀ r, s.table.lookupElem k = some r → ∀ f v,
    Rule.max f v ∈ rules ∨ Rule.min f v ∈ rules → ∃ x ∈ s.members k, f r = v x
  /-- One invocation inserted the record if it is present, none if it is absent. -/
  inserters : (s.threads.map (·.inserts k)).sum = if (s.table.lookupElem k).isSome then 1 else 0

/-- What holds of every key in every state the invocations can reach. -/
def Inv (s : Sys K X R) : Prop := ∀ k, InvAt acc zero rules k s

/-- An invocation that has not reached `k`'s record has added nothing to it. -/
theorem contrib_of_joins_none {f : R → Nat} {inc : X → Nat} {k : K} {p : Pc K X}
    (h : p.joins k = none) : contrib acc zero f inc k p = 0 := by
  cases p with
  | merging k' x n _ _ => by_cases hk : k' = k <;> simp_all [Pc.joins, contrib]
  | done k' x o => cases o <;> by_cases hk : k' = k <;> simp_all [Pc.joins, contrib]
  | _ => rfl

/-- What the invariant reads of an invocation is kept by its step, except that the invocation
may have reached a record present in `m`. -/
def Keeps (m : BpfMap K R) (p p' : Pc K X) : Prop :=
  ∀ k, (p'.joins k = p.joins k ∨ (p.joins k = none ∧ (m.lookupElem k).isSome)) ∧
    p'.inserts k = p.inserts k ∧ ∀ f inc, contrib acc zero f inc k p' = contrib acc zero f inc k p

/-- Everything one step of an invocation can do: keep what the invariant reads, insert the
record, finish the merge branch, or write the record through the pointer. -/
theorem threadStep_cases (m : BpfMap K R) (p : Pc K X) :
    ((threadStep acc new m p).1 = m ∧ Keeps acc zero m p (threadStep acc new m p).2) ∨
    (∃ k x h, p = .insert k x ∧ m.lookupElem k = none ∧
      threadStep acc new m p = (m.put k (new x) h, .done k x .inserted)) ∨
    (∃ k x n probe armed, p = .merging k x n probe armed ∧ (acc x).length ≤ n ∧
      threadStep acc new m p = (m, .done k x .merged)) ∨
    (∃ k x n probe armed a, p = .merging k x n probe armed ∧ (acc x)[n]? = some a ∧
      threadStep acc new m p = (storeAt m k a.write, .merging k x (n + 1) 0 false)) := by
  cases p with
  | lookup k x =>
    refine .inl ⟨rfl, fun k' => ?_⟩
    cases hl : m.lookupElem k with
    | none => simp [threadStep, hl, Pc.joins, Pc.inserts, contrib]
    | some r =>
      by_cases hk : k = k'
      · subst hk; simp [threadStep, hl, Pc.joins, Pc.inserts, contrib]
      · simp [threadStep, hl, Pc.joins, Pc.inserts, contrib, hk]
  | insert k x =>
    by_cases hm : k ∈ m.elems
    · refine .inl ⟨by simp [threadStep, BpfMap.updateElem_noexist_of_mem _ _ _ hm], fun k' => ?_⟩
      simp [threadStep, BpfMap.updateElem_noexist_of_mem _ _ _ hm, EEXIST, Pc.joins, Pc.inserts,
        contrib]
    · by_cases h : m.HasRoom k
      · exact .inr (.inl ⟨k, x, h, rfl, by simpa [BpfMap.mem_iff_lookupElem] using hm,
          by simp [threadStep, BpfMap.updateElem_noexist_of_not_mem _ _ _ hm h]⟩)
      · have hu := m.updateElem_of_not_hasRoom k (new x) .noexist h
        refine .inl ⟨by simp [threadStep, hu.2], fun k' => ?_⟩
        simp [threadStep, hu.1, Pc.joins, Pc.inserts, contrib]
  | merging k x n probe armed =>
    cases ha : (acc x)[n]? with
    | none => exact .inr (.inr (.inl ⟨k, x, n, probe, armed, rfl,
        List.getElem?_eq_none_iff.mp ha, by simp [threadStep, ha]⟩))
    | some a =>
      cases a with
      | rmw f => exact .inr (.inr (.inr ⟨k, x, n, probe, armed, _, rfl, ha,
          by simp [threadStep, ha, Access.write]⟩))
      | testStore ts st =>
        cases armed
        · refine .inl ?_
          cases ht : ts[probe]? with
          | none =>
            refine ⟨by simp [threadStep, ha, ht], fun k' => ?_⟩
            simp [threadStep, ha, ht, Pc.joins, Pc.inserts, contrib, List.take_succ, Access.gain]
          | some t =>
            by_cases hr : (m.lookupElem k).elim false t <;>
              simp [threadStep, ha, ht, hr, Keeps, Pc.joins, Pc.inserts, contrib]
        · exact .inr (.inr (.inr ⟨k, x, n, probe, true, _, rfl, ha,
            by simp [threadStep, ha, Access.write]⟩))
  | done k x o => exact .inl ⟨rfl, fun k' => ⟨.inl rfl, rfl, fun _ _ => rfl⟩⟩

/-! ### Each kind of step keeps the invariant -/

variable {acc new zero rules} {m : BpfMap K R} {l : List (Pc K X)} {i : Nat}

/-- The max and min rules' obligations, whichever of the two the rule is. -/
theorem extreme_respects (hresp : ∀ ρ ∈ rules, AccessesRespect acc new zero ρ)
    {f : R → Nat} {v : X → Nat} (hmem : Rule.max f v ∈ rules ∨ Rule.min f v ∈ rules) :
    (∀ x, ∀ a ∈ acc x, ∀ r, f (a.write r) = f r ∨ f (a.write r) = v x) ∧ ∀ x, f (new x) = v x :=
  hmem.elim (hresp _) (hresp _)

/-- A step that leaves `k`'s record as it was and keeps what the invariant reads of the
invocation at `k`, except that the invocation may reach a present record, keeps `k`'s
invariant. -/
theorem invAt_keep {m' : BpfMap K R} {k : K} {p p' : Pc K X}
    (hinv : InvAt acc zero rules k ⟨m, l⟩) (hp : l[i]? = some p)
    (hm : m'.lookupElem k = m.lookupElem k)
    (hj : p'.joins k = p.joins k ∨ (p.joins k = none ∧ (m.lookupElem k).isSome))
    (hins : p'.inserts k = p.inserts k)
    (hc : ∀ w f inc, Rule.sum w f inc ∈ rules →
      contrib acc zero f inc k p' = contrib acc zero f inc k p) :
    InvAt acc zero rules k ⟨m', l.set i p'⟩ where
  present q hq hjq := by
    dsimp only
    rw [hm]
    rcases List.mem_or_eq_of_mem_set hq with hq | rfl
    · exact hinv.present q hq hjq
    · rcases hj with h | h
      · exact hinv.present p (List.getElem?_mem hp) (h ▸ hjq)
      · exact h.2
  sums r hr w f inc hmem := by
    dsimp only at hr ⊢
    rw [sum_map_set_of_eq _ (hc w f inc hmem) hp]
    exact hinv.sums r (hm ▸ hr) w f inc hmem
  extremes r hr f v hmem := by
    obtain ⟨x, hx, hfx⟩ := hinv.extremes r (hm ▸ hr) f v hmem
    exact ⟨x, mem_filterMap_set _ (hj.elim .inr (.inl ·.1)) hp hx, hfx⟩
  inserters := by
    dsimp only
    rw [sum_map_set_of_eq _ hins hp, hm]
    exact hinv.inserters

/-- A step that keeps the table and what the invariant reads of the invocation keeps the
invariant. -/
theorem inv_keep {p p' : Pc K X} (hinv : Inv acc zero rules ⟨m, l⟩) (hp : l[i]? = some p)
    (hk : Keeps acc zero m p p') : Inv acc zero rules ⟨m, l.set i p'⟩ := fun k =>
  invAt_keep (hinv k) hp rfl (hk k).1 (hk k).2.1 fun _ f inc _ => (hk k).2.2 f inc

/-- The last access done, the merge branch returns: its sample is now wholly added. -/
theorem inv_finish (hresp : ∀ ρ ∈ rules, AccessesRespect acc new zero ρ) {k : K} {x : X}
    {n probe : Nat} {armed : Bool} (hinv : Inv acc zero rules ⟨m, l⟩)
    (hp : l[i]? = some (.merging k x n probe armed)) (hn : (acc x).length ≤ n) :
    Inv acc zero rules ⟨m, l.set i (.done k x .merged)⟩ := fun k' =>
  invAt_keep (hinv k') hp rfl (.inl rfl) rfl fun w f inc hmem => by
    simp only [contrib, List.take_of_length_le hn, ((hresp _ hmem).2.1 x)]

/-- A successful `BPF_NOEXIST` insert: the record holds its one sample, and its inserter is
the only one. -/
theorem invAt_insert_self (hresp : ∀ ρ ∈ rules, AccessesRespect acc new zero ρ) {k : K} {x : X}
    (hinv : InvAt acc zero rules k ⟨m, l⟩) (hp : l[i]? = some (.insert k x))
    (hk : m.lookupElem k = none) (h : m.HasRoom k) :
    InvAt acc zero rules k ⟨m.put k (new x) h, l.set i (.done k x .inserted)⟩ := by
  have hnone : ∀ q ∈ l, q.joins k = none := fun q hq => by
    by_contra hq'
    simpa [hk] using hinv.present q hq (Option.ne_none_iff_isSome.mp hq')
  have hzero : ∀ f inc, (l.map (contrib acc zero f inc k)).sum = 0 := fun f inc =>
    List.sum_eq_zero fun c hc => by
      obtain ⟨q, hq, rfl⟩ := List.mem_map.mp hc
      exact contrib_of_joins_none acc zero (hnone q hq)
  have hput : (m.put k (new x) h).lookupElem k = some (new x) := by
    rw [BpfMap.lookupElem_put, if_pos rfl]
  refine ⟨fun _ _ _ => by simp [hput], fun r hr w f inc hmem => ?_, fun r hr f v hmem => ?_, ?_⟩
  · have hs := sum_map_set (contrib acc zero f inc k) (a := .done k x .inserted) hp
    simp only [contrib_insert, contrib_done_inserted, if_true, hzero, Nat.zero_add,
      Nat.add_zero] at hs
    obtain rfl : new x = r := Option.some.inj (hput.symm.trans hr)
    dsimp only
    rw [hs, (hresp _ hmem).2.2 x]
  · obtain rfl : new x = r := Option.some.inj (hput.symm.trans hr)
    exact ⟨x, mem_filterMap_set_self _ hp (by simp), (extreme_respects hresp hmem).2 x⟩
  · have hs := sum_map_set (·.inserts k) (a := .done k x .inserted) hp
    have hold := hinv.inserters
    dsimp only at hs hold ⊢
    rw [Pc.inserts_insert, Pc.inserts_done_inserted, if_pos rfl, Nat.add_zero] at hs
    rw [hk] at hold
    rw [hs, hold, hput]
    rfl

/-- A successful `BPF_NOEXIST` insert keeps the invariant. -/
theorem inv_insert (hresp : ∀ ρ ∈ rules, AccessesRespect acc new zero ρ) {k : K} {x : X}
    (hinv : Inv acc zero rules ⟨m, l⟩) (hp : l[i]? = some (.insert k x))
    (hk : m.lookupElem k = none) (h : m.HasRoom k) :
    Inv acc zero rules ⟨m.put k (new x) h, l.set i (.done k x .inserted)⟩ := fun k' => by
  by_cases hk' : k' = k
  · subst hk'
    exact invAt_insert_self hresp (hinv _) hp hk h
  · refine invAt_keep (hinv k') hp (by rw [BpfMap.lookupElem_put, if_neg hk']) (.inl ?_) ?_ ?_
    · simp [Pc.joins, Ne.symm hk']
    · simp [Pc.inserts, Ne.symm hk']
    · simp [Ne.symm hk']

/-- An access writes the record through the pointer: an additive field gains what the access
adds, a max or min field keeps its value or takes the sample's. -/
theorem invAt_write_self (hresp : ∀ ρ ∈ rules, AccessesRespect acc new zero ρ) {k : K} {x : X}
    {n probe : Nat} {armed : Bool} {a : Access R} (hinv : InvAt acc zero rules k ⟨m, l⟩)
    (hp : l[i]? = some (.merging k x n probe armed)) (ha : (acc x)[n]? = some a) :
    InvAt acc zero rules k ⟨storeAt m k a.write, l.set i (.merging k x (n + 1) 0 false)⟩ := by
  obtain ⟨r, hr⟩ := Option.isSome_iff_exists.mp
    (hinv.present _ (List.getElem?_mem hp) (by simp))
  have hstore : (storeAt m k a.write).lookupElem k = some (a.write r) := by
    rw [lookupElem_storeAt, if_pos rfl, hr]
    rfl
  have hacc : a ∈ acc x := List.getElem?_mem ha
  have hkeep : ∀ {y}, y ∈ l.filterMap (·.joins k) →
      y ∈ (l.set i (.merging k x (n + 1) 0 false)).filterMap (·.joins k) :=
    mem_filterMap_set (p := .merging k x n probe armed) (a := .merging k x (n + 1) 0 false)
      (·.joins k) (.inr rfl) hp
  refine ⟨fun _ _ _ => by simp [hstore], fun r' hr' w f inc hρ => ?_, fun r' hr' f v hρ => ?_,
    ?_⟩
  · obtain rfl : a.write r = r' := Option.some.inj (hstore.symm.trans hr')
    have hs := sum_map_set (contrib acc zero f inc k) (a := .merging k x (n + 1) 0 false) hp
    simp only [contrib_merging, if_true, List.take_succ, ha, Option.toList_some,
      List.map_append, List.sum_append, List.map_cons, List.map_nil, List.sum_cons,
      List.sum_nil, Nat.add_zero] at hs
    have hsum := hinv.sums r hr w f inc hρ
    dsimp only at hsum ⊢
    rw [(hresp _ hρ).1 x a hacc r, hsum, Nat.mod_add_mod]
    congr 1
    omega
  · obtain rfl : a.write r = r' := Option.some.inj (hstore.symm.trans hr')
    rcases (extreme_respects hresp hρ).1 x a hacc r with hf | hf
    · obtain ⟨y, hy, hfy⟩ := hinv.extremes r hr f v hρ
      exact ⟨y, hkeep hy, hf.trans hfy⟩
    · exact ⟨x, mem_filterMap_set_self _ hp (by simp), hf⟩
  · have hs := sum_map_set_of_eq (·.inserts k) (p := .merging k x n probe armed)
      (a := .merging k x (n + 1) 0 false) rfl hp
    dsimp only at hs ⊢
    rw [hs, hinv.inserters, hstore, hr]
    rfl

/-- An access through the pointer keeps the invariant. -/
theorem inv_write (hresp : ∀ ρ ∈ rules, AccessesRespect acc new zero ρ) {k : K} {x : X}
    {n probe : Nat} {armed : Bool} {a : Access R} (hinv : Inv acc zero rules ⟨m, l⟩)
    (hp : l[i]? = some (.merging k x n probe armed)) (ha : (acc x)[n]? = some a) :
    Inv acc zero rules ⟨storeAt m k a.write, l.set i (.merging k x (n + 1) 0 false)⟩ :=
  fun k' => by
  by_cases hk' : k' = k
  · subst hk'
    exact invAt_write_self hresp (hinv _) hp ha
  · refine invAt_keep (hinv k') hp (by rw [lookupElem_storeAt, if_neg hk']) (.inl rfl) rfl ?_
    simp [Ne.symm hk']

/-! ### Every interleaving keeps the invariant -/

/-- No invocation started, on an empty table. -/
theorem inv_init (cap : Nat) (invs : List (K × X)) : Inv acc zero rules (Sys.init cap invs) :=
  fun k => {
    present := fun p hp hj => by
      obtain ⟨_, -, rfl⟩ := List.mem_map.mp hp
      simp [Pc.joins] at hj
    sums := fun r hr => by simp [Sys.init] at hr
    extremes := fun r hr => by simp [Sys.init] at hr
    inserters := by simp [Sys.init, Pc.inserts, Function.comp_def] }

/-- Invocations not yet started, added to any state, keep the invariant: they have reached no
record and inserted none. -/
theorem inv_append_unstarted {s : Sys K X R} (hinv : Inv acc zero rules s) (invs : List (K × X)) :
    Inv acc zero rules ⟨s.table, s.threads ++ invs.map fun kx => .lookup kx.1 kx.2⟩ := fun k => {
  present := fun p hp hj => by
    rcases List.mem_append.mp hp with hp | hp
    · exact (hinv k).present p hp hj
    · obtain ⟨_, -, rfl⟩ := List.mem_map.mp hp
      simp [Pc.joins] at hj
  sums := fun r hr w f inc hmem => by
    simpa [contrib, Function.comp_def] using (hinv k).sums r hr w f inc hmem
  extremes := fun r hr f v hmem => by
    obtain ⟨x, hx, hfx⟩ := (hinv k).extremes r hr f v hmem
    exact ⟨x, by rw [Sys.members, List.filterMap_append]; exact List.mem_append_left _ hx, hfx⟩
  inserters := by simpa [Pc.inserts, Function.comp_def] using (hinv k).inserters }

/-- One step of any invocation keeps the invariant. -/
theorem inv_sysStep (hresp : ∀ ρ ∈ rules, AccessesRespect acc new zero ρ) (s : Sys K X R) (i : Nat)
    (hinv : Inv acc zero rules s) : Inv acc zero rules (sysStep acc new s i) := by
  obtain ⟨m, l⟩ := s
  dsimp only [sysStep]
  cases hp : l[i]? with
  | none => exact hinv
  | some p =>
    dsimp only
    rcases threadStep_cases acc new zero m p with ⟨h1, hk⟩ | ⟨k, x, h, rfl, hl, hq⟩ |
      ⟨k, x, n, probe, armed, rfl, hn, hq⟩ | ⟨k, x, n, probe, armed, a, rfl, ha, hq⟩
    · rw [h1]
      exact inv_keep hinv hp hk
    · rw [hq]
      exact inv_insert hresp hinv hp hl h
    · rw [hq]
      exact inv_finish hresp hinv hp hn
    · rw [hq]
      exact inv_write hresp hinv hp ha

/-- Every interleaving keeps the invariant. -/
theorem inv_sysRun (hresp : ∀ ρ ∈ rules, AccessesRespect acc new zero ρ) :
    ∀ (s : Sys K X R) (sched : List Nat), Inv acc zero rules s →
      Inv acc zero rules (sysRun acc new s sched)
  | _, [], h => h
  | s, i :: sched, h => inv_sysRun hresp (sysStep acc new s i) sched (inv_sysStep hresp s i h)

end Invariant

/-! ## What every interleaving guarantees -/

section Landed

variable {acc : X → List (Access R)} {zero : R} {rules : List (Rule X R)} {s : Sys K X R}

end Landed

section Race

variable (acc : X → List (Access R)) (new : X → R)

/-- A step of an invocation changes no other key's record. -/
theorem lookupElem_threadStep_of_ne (m : BpfMap K R) {p : Pc K X} {k : K} (hk : p.input.1 ≠ k) :
    (threadStep acc new m p).1.lookupElem k = m.lookupElem k := by
  cases p with
  | lookup k' x => rfl
  | insert k' x =>
    simp only [Pc.input] at hk
    simp only [threadStep]
    by_cases hm : k' ∈ m.elems
    · rw [BpfMap.updateElem_noexist_of_mem _ _ _ hm]
    · by_cases hroom : m.HasRoom k'
      · rw [BpfMap.updateElem_noexist_of_not_mem _ _ _ hm hroom, BpfMap.lookupElem_put,
          if_neg (Ne.symm hk)]
      · rw [(m.updateElem_of_not_hasRoom k' (new x) .noexist hroom).2]
  | merging k' x n probe armed =>
    simp only [Pc.input] at hk
    simp only [threadStep]
    split <;> (try split) <;> (try split) <;> (try split) <;>
      simp [lookupElem_storeAt, Ne.symm hk]
  | done => rfl

/-- No step removes a record. -/
theorem lookupElem_threadStep_ne_none (m : BpfMap K R) (p : Pc K X) {k : K}
    (h : m.lookupElem k ≠ none) : (threadStep acc new m p).1.lookupElem k ≠ none := by
  by_cases hk : p.input.1 = k
  · cases p with
    | lookup => exact h
    | insert k' x =>
      simp only [threadStep]
      by_cases hm : k' ∈ m.elems
      · rwa [BpfMap.updateElem_noexist_of_mem _ _ _ hm]
      · by_cases hroom : m.HasRoom k'
        · rw [BpfMap.updateElem_noexist_of_not_mem _ _ _ hm hroom, BpfMap.lookupElem_put]
          split_ifs <;> simp [h]
        · rwa [(m.updateElem_of_not_hasRoom k' (new x) .noexist hroom).2]
    | merging k' x n probe armed =>
      have hs : ∀ f, (storeAt m k' f).lookupElem k ≠ none := fun f => by
        rw [lookupElem_storeAt]
        split_ifs with he
        · subst he; simpa using h
        · exact h
      simp only [threadStep]
      split <;> (try split) <;> (try split) <;> (try split) <;> first | exact h | exact hs _
    | done => exact h
  · rwa [lookupElem_threadStep_of_ne acc new m hk]

/-- No step of an invocation changes the table's capacity. -/
theorem maxEntries_threadStep (m : BpfMap K R) (p : Pc K X) :
    (threadStep acc new m p).1.maxEntries = m.maxEntries := by
  cases p with
  | merging k x n probe armed =>
    simp only [threadStep]
    split <;> (try split) <;> (try split) <;> (try split) <;> simp [storeAt] <;> (try split) <;> simp
  | _ => simp [threadStep]

/-- A table with no room for `k` keeps having none through a step of an invocation on another
key: no step removes a record or changes the capacity. -/
theorem not_hasRoom_threadStep (m : BpfMap K R) {p : Pc K X} {k : K} (hk : p.input.1 ≠ k)
    (h : ¬ m.HasRoom k) : ¬ (threadStep acc new m p).1.HasRoom k := by
  have hsize : m.size ≤ (threadStep acc new m p).1.size :=
    BpfMap.size_le_of_lookupElem fun _ h' => lookupElem_threadStep_ne_none acc new m p h'
  simp only [BpfMap.HasRoom, not_or, BpfMap.mem_iff_lookupElem, ne_eq, not_not] at h ⊢
  rw [lookupElem_threadStep_of_ne acc new m hk, maxEntries_threadStep]
  exact ⟨h.1, by omega⟩

/-- The `BPF_NOEXIST` insert of `k` with sample `x`: a present key refuses it, an absent key with
room takes `new x`, a full table refuses it; a refused insert leaves the table alone. -/
theorem threadStep_insert (m : BpfMap K R) (k : K) (x : X) :
    (k ∈ m.elems ∧ threadStep acc new m (.insert k x) = (m, .done k x .lost)) ∨
    (∃ h : m.HasRoom k, k ∉ m.elems ∧
      threadStep acc new m (.insert k x) = (m.put k (new x) h, .done k x .inserted)) ∨
    (¬ m.HasRoom k ∧ threadStep acc new m (.insert k x) = (m, .done k x .lost)) := by
  by_cases hm : k ∈ m.elems
  · exact .inl ⟨hm, by simp [threadStep, BpfMap.updateElem_noexist_of_mem _ _ _ hm, EEXIST]⟩
  · by_cases hroom : m.HasRoom k
    · exact .inr (.inl ⟨hroom, hm, by
        simp [threadStep, BpfMap.updateElem_noexist_of_not_mem _ _ _ hm hroom]⟩)
    · have hu := m.updateElem_of_not_hasRoom k (new x) .noexist hroom
      exact .inr (.inr ⟨hroom, by simp [threadStep, hu.2, hu.1]⟩)

/-- Where one of two invocations racing to insert `k`'s record stands, at `p` with sample `x`
while the other stands at `q` with sample `y`: at its insert; returned after inserting the
record `new x`, the other not having inserted; or returned after losing to the other's insert
or to a full table. -/
def RaceSide (k : K) (x y : X) (m : BpfMap K R) (p q : Option (Pc K X)) : Prop :=
  p = some (.insert k x) ∨
    (p = some (.done k x .inserted) ∧ m.lookupElem k = some (new x) ∧
      q ≠ some (.done k y .inserted)) ∨
    (p = some (.done k x .lost) ∧ (q = some (.done k y .inserted) ∨ ¬ m.HasRoom k))

/-- Invocations `i` and `j` race to insert `k`'s record with samples `x` and `y`, and no other
invocation runs on `k`. -/
structure Racing (k : K) (i : Nat) (x : X) (j : Nat) (y : X) (s : Sys K X R) : Prop where
  /-- Two invocations. -/
  apart : i ≠ j
  /-- No other invocation runs on `k`. -/
  others : ∀ l p, l ≠ i → l ≠ j → s.threads[l]? = some p → p.input.1 ≠ k
  /-- Where `i` stands. -/
  left : RaceSide new k x y s.table s.threads[i]? s.threads[j]?
  /-- Where `j` stands. -/
  right : RaceSide new k y x s.table s.threads[j]? s.threads[i]?
  /-- `k`'s record exists only once one of the two has inserted it. -/
  absent : s.table.lookupElem k = none ∨ s.threads[i]? = some (.done k x .inserted) ∨
    s.threads[j]? = some (.done k y .inserted)

variable {acc new}

/-- The race seen from the other side. -/
theorem Racing.symm {k : K} {i j : Nat} {x y : X} {s : Sys K X R}
    (h : Racing new k i x j y s) : Racing new k j y i x s :=
  ⟨h.apart.symm, fun l p hj hi => h.others l p hi hj, h.right, h.left, by
    rcases h.absent with h' | h' | h'
    · exact .inl h'
    · exact .inr (.inr h')
    · exact .inr (.inl h')⟩

variable {k : K} {i j : Nat} {x y : X} {s : Sys K X R}

/-- A step of a returned invocation changes nothing. -/
theorem sysStep_done {o : Outcome} (hp : s.threads[i]? = some (.done k x o)) :
    sysStep acc new s i = s := by
  simp [sysStep, hp, threadStep, set_of_getElem? hp]

/-- A step of an invocation on another key keeps the race: `k`'s record stays as it was, and a
table with no room for `k` keeps having none. -/
theorem Racing.step_other (h : Racing new k i x j y s) {l : Nat} (hli : l ≠ i) (hlj : l ≠ j) :
    Racing new k i x j y (sysStep acc new s l) := by
  cases hp : s.threads[l]? with
  | none => simpa [sysStep, hp] using h
  | some p =>
    have hk := h.others l p hli hlj hp
    have hth : ∀ l', (sysStep acc new s l).threads[l']? =
        if l' = l then some (threadStep acc new s.table p).2 else s.threads[l']? := fun l' => by
      simp only [sysStep, hp]
      exact getElem?_set_of_getElem? hp _ l'
    have htab : (sysStep acc new s l).table = (threadStep acc new s.table p).1 := by
      simp only [sysStep, hp]
    have hlook : (sysStep acc new s l).table.lookupElem k = s.table.lookupElem k := by
      rw [htab, lookupElem_threadStep_of_ne acc new _ hk]
    have side : ∀ {x y : X} {p q : Option (Pc K X)}, RaceSide new k x y s.table p q →
        RaceSide new k x y (sysStep acc new s l).table p q := by
      rintro x y p q (h | ⟨h₁, h₂, h₃⟩ | ⟨h₁, h₂⟩)
      · exact .inl h
      · exact .inr (.inl ⟨h₁, hlook ▸ h₂, h₃⟩)
      · exact .inr (.inr ⟨h₁, h₂.imp_right fun hr => htab ▸ not_hasRoom_threadStep acc new _ hk hr⟩)
    have hi : (sysStep acc new s l).threads[i]? = s.threads[i]? := by rw [hth, if_neg (Ne.symm hli)]
    have hj : (sysStep acc new s l).threads[j]? = s.threads[j]? := by rw [hth, if_neg (Ne.symm hlj)]
    refine ⟨h.apart, fun l' p' hl'i hl'j hp' => ?_, ?_, ?_, ?_⟩
    · rw [hth] at hp'
      split_ifs at hp' with hl'
      · cases hp'
        rw [input_threadStep]
        exact hk
      · exact h.others l' p' hl'i hl'j hp'
    · rw [hi, hj]
      exact side h.left
    · rw [hi, hj]
      exact side h.right
    · rw [hi, hj, hlook]
      exact h.absent

/-- A step of racer `i` keeps the race: at its insert it loses to `j`'s record, inserts `new x`,
or loses to a full table; returned, it does nothing. -/
theorem Racing.step_left (h : Racing new k i x j y s) :
    Racing new k i x j y (sysStep acc new s i) := by
  rcases h.left with hp | ⟨hp, -⟩ | ⟨hp, -⟩
  · have hth : ∀ (P : Pc K X) l, (s.threads.set i P)[l]? = if l = i then some P else s.threads[l]? :=
      fun P l => getElem?_set_of_getElem? hp P l
    have hj : ∀ P : Pc K X, (s.threads.set i P)[j]? = s.threads[j]? := fun P => by
      rw [hth, if_neg (Ne.symm h.apart)]
    have hothers : ∀ (P : Pc K X) l p, l ≠ i → l ≠ j → (s.threads.set i P)[l]? = some p →
        p.input.1 ≠ k := fun P l p hli hlj hp' => h.others l p hli hlj (by rwa [hth, if_neg hli] at hp')
    have hs : sysStep acc new s i = ⟨(threadStep acc new s.table (.insert k x)).1,
        s.threads.set i (threadStep acc new s.table (.insert k x)).2⟩ := by
      simp [sysStep, hp]
    rcases threadStep_insert acc new s.table k x with ⟨hm, hstep⟩ | ⟨hroom, hm, hstep⟩ | ⟨hroom, hstep⟩
    · -- `k` is present: `j` inserted it, and `i` loses
      rw [hs, hstep]
      have hjin : s.threads[j]? = some (.done k y .inserted) := by
        rcases h.absent with ha | ha | ha
        · exact absurd ha (BpfMap.mem_iff_lookupElem.mp hm)
        · rw [hp] at ha; cases ha
        · exact ha
      rcases h.right with hq | ⟨-, hly, -⟩ | ⟨hq, -⟩
      · rw [hjin] at hq; cases hq
      · exact ⟨h.apart, hothers _, .inr (.inr ⟨by rw [hth, if_pos rfl], .inl (by rw [hj, hjin])⟩),
          .inr (.inl ⟨by rw [hj, hjin], hly, by rw [hth, if_pos rfl]; simp⟩), .inr (.inr (by rw [hj, hjin]))⟩
      · rw [hjin] at hq; cases hq
    · -- `k` is absent and fits: `i` inserts `new x`
      rw [hs, hstep]
      have hnone : s.table.lookupElem k = none := by simpa [BpfMap.mem_iff_lookupElem] using hm
      have hjn : s.threads[j]? ≠ some (.done k y .inserted) := fun e => by
        rcases h.right with hq | ⟨-, hly, -⟩ | ⟨hq, -⟩
        · rw [e] at hq; cases hq
        · rw [hnone] at hly; cases hly
        · rw [e] at hq; cases hq
      refine ⟨h.apart, hothers _, .inr (.inl ⟨by rw [hth, if_pos rfl],
        by rw [BpfMap.lookupElem_put, if_pos rfl], by rw [hj]; exact hjn⟩), ?_,
        .inr (.inl (by rw [hth, if_pos rfl]))⟩
      show RaceSide new k y x _ (s.threads.set i _)[j]? (s.threads.set i _)[i]?
      rw [hj, hth, if_pos rfl]
      rcases h.right with hq | ⟨hq, -⟩ | ⟨hq, -⟩
      · exact .inl hq
      · exact absurd hq hjn
      · exact .inr (.inr ⟨hq, .inl rfl⟩)
    · -- a full table: `i` loses
      rw [hs, hstep]
      have hnone : s.table.lookupElem k = none := by
        simp only [BpfMap.HasRoom, not_or, BpfMap.mem_iff_lookupElem, ne_eq, not_not] at hroom
        exact hroom.1
      refine ⟨h.apart, hothers _, .inr (.inr ⟨by rw [hth, if_pos rfl], .inr hroom⟩), ?_, .inl hnone⟩
      show RaceSide new k y x _ (s.threads.set i _)[j]? (s.threads.set i _)[i]?
      rw [hj, hth, if_pos rfl]
      rcases h.right with hq | ⟨-, hly, -⟩ | ⟨hq, -⟩
      · exact .inl hq
      · rw [hnone] at hly; cases hly
      · exact .inr (.inr ⟨hq, .inr hroom⟩)
  · rwa [sysStep_done hp]
  · rwa [sysStep_done hp]

/-- Every step keeps the race. -/
theorem Racing.step (h : Racing new k i x j y s) (l : Nat) :
    Racing new k i x j y (sysStep acc new s l) := by
  by_cases hli : l = i
  · subst hli
    exact h.step_left
  · by_cases hlj : l = j
    · subst hlj
      exact h.symm.step_left.symm
    · exact h.step_other hli hlj

/-- Every schedule keeps the race. -/
theorem Racing.run : ∀ {s : Sys K X R} (sched : List Nat), Racing new k i x j y s →
    Racing new k i x j y (sysRun acc new s sched)
  | _, [], h => h
  | _, l :: sched, h => Racing.run sched (h.step l)

end Race

/-- The steps an access takes at most when its invocation runs alone: one per test probed, then
the store or the move to the next access. -/
def Access.steps {R : Type} : Access R → Nat
  | .rmw _ => 1
  | .testStore ts _ => ts.length + 1

section Alone

variable (acc : X → List (Access R)) (new : X → R)

/-- Steps enough for an invocation on sample `x` to return when it runs alone: the lookup, the
insert or every access, and the return. -/
def fuel (x : X) : Nat := ((acc x).map Access.steps).sum + 2

/-- Invocations `i`, `i + 1`, … each run alone until it returns. -/
def inTurn : Nat → List (K × X) → List Nat
  | _, [] => []
  | i, kx :: invs => List.replicate (fuel acc kx.2) i ++ inTurn (i + 1) invs

/-- `n` steps of one invocation running alone on the table `m`. -/
def soloRun (m : BpfMap K R) (p : Pc K X) : Nat → BpfMap K R × Pc K X
  | 0 => (m, p)
  | n + 1 => soloRun (threadStep acc new m p).1 (threadStep acc new m p).2 n

/-- Running alone for `a + b` steps is running `a` steps and then `b`. -/
theorem soloRun_add (m : BpfMap K R) (p : Pc K X) : ∀ a b : Nat,
    soloRun acc new m p (a + b) = soloRun acc new (soloRun acc new m p a).1 (soloRun acc new m p a).2 b
  | 0, _ => by simp [soloRun]
  | a + 1, b => by
    rw [Nat.add_right_comm, soloRun, soloRun_add _ _ a b]
    rfl

/-- Schedules compose: the second part runs from the state the first leaves. -/
theorem sysRun_append (s : Sys K X R) (a b : List Nat) :
    sysRun acc new s (a ++ b) = sysRun acc new (sysRun acc new s a) b := List.foldl_append _ _ _ _

/-- A returned invocation stays as it is. -/
theorem soloRun_done (m : BpfMap K R) (k : K) (x : X) (o : Outcome) :
    ∀ n, soloRun acc new m (.done k x o) n = (m, .done k x o)
  | 0 => rfl
  | n + 1 => soloRun_done m k x o n

/-- Steps of one invocation alone move it as `soloRun` says, and no other invocation. -/
theorem sysRun_replicate : ∀ (n : Nat) (s : Sys K X R) (i : Nat) (p : Pc K X),
    s.threads[i]? = some p →
      sysRun acc new s (List.replicate n i) =
        ⟨(soloRun acc new s.table p n).1, s.threads.set i (soloRun acc new s.table p n).2⟩
  | 0, s, i, p, hp => by simp [sysRun, soloRun, set_of_getElem? hp]
  | n + 1, s, i, p, hp => by
    have hs : sysStep acc new s i =
        ⟨(threadStep acc new s.table p).1, s.threads.set i (threadStep acc new s.table p).2⟩ := by
      simp [sysStep, hp]
    have ih := sysRun_replicate n ⟨(threadStep acc new s.table p).1,
      s.threads.set i (threadStep acc new s.table p).2⟩ i _ (by rw [getElem?_set_of_getElem? hp, if_pos rfl])
    rw [List.replicate_succ, sysRun, List.foldl_cons, hs, ← sysRun, ih]
    simp [soloRun]

/-- The probes of a test-and-store access, alone on a table holding `r`: the store happens when
a test from the current probe on holds of `r`, and the invocation moves to its next access. -/
theorem soloRun_probe {m : BpfMap K R} {k : K} {x : X} {n : Nat} {ts : List (R → Bool)}
    {st : R → R} {r : R} (ha : (acc x)[n]? = some (.testStore ts st))
    (hr : m.lookupElem k = some r) : ∀ p, p ≤ ts.length → ∃ u ≤ ts.length + 1 - p,
      soloRun acc new m (.merging k x n p false) u =
        (if (ts.drop p).any (· r) then storeAt m k st else m, .merging k x (n + 1) 0 false)
  | p, hp => by
    cases ht : ts[p]? with
    | none =>
      have hdrop : ts.drop p = [] := List.drop_eq_nil_of_le (List.getElem?_eq_none_iff.mp ht)
      exact ⟨1, by omega, by simp [soloRun, threadStep, ha, ht, hdrop]⟩
    | some t =>
      obtain ⟨hlt, htp⟩ := List.getElem?_eq_some_iff.mp ht
      have hdrop : ts.drop p = t :: ts.drop (p + 1) := by rw [List.drop_eq_getElem_cons hlt, htp]
      by_cases htr : t r
      · exact ⟨2, by omega, by simp [soloRun, threadStep, ha, ht, hr, htr, hdrop]⟩
      · obtain ⟨u, hu, hrun⟩ := soloRun_probe ha hr (p + 1) hlt
        refine ⟨u + 1, by omega, ?_⟩
        simp only [soloRun, threadStep, ha, ht, hr, Option.elim, htr, Bool.false_eq_true, if_false]
        rw [hrun, hdrop]
        simp [htr]
termination_by p => ts.length - p

/-- A store through the pointer keeps the map's capacity. -/
@[simp] theorem maxEntries_storeAt (m : BpfMap K R) (k : K) (f : R → R) :
    (storeAt m k f).maxEntries = m.maxEntries := by
  unfold storeAt BpfMap.writeElem
  split <;> (try split) <;> rfl

/-- From its access `n`, an invocation alone on a table holding `r` at its key runs its accesses
in order and returns: the key ends holding them run on `r`, and no other key changes. -/
theorem soloRun_merging (k : K) (x : X) : ∀ (n : Nat) (m : BpfMap K R) (r : R),
    m.lookupElem k = some r → ∃ u ≤ (((acc x).drop n).map Access.steps).sum + 1, ∃ m',
      soloRun acc new m (.merging k x n 0 false) u = (m', .done k x .merged) ∧
        m'.maxEntries = m.maxEntries ∧
        ∀ j, m'.lookupElem j = if j = k then some (seqApply ((acc x).drop n) r) else m.lookupElem j
  | n, m, r, hr => by
    cases ha : (acc x)[n]? with
    | none =>
      have hdrop : (acc x).drop n = [] := List.drop_eq_nil_of_le (List.getElem?_eq_none_iff.mp ha)
      refine ⟨1, by omega, m, by simp [soloRun, threadStep, ha], rfl, fun j => ?_⟩
      split_ifs with hj
      · rw [hj, hr, hdrop]
        rfl
      · rfl
    | some a =>
      have hlt := (List.getElem?_eq_some_iff.mp ha).1
      have hdrop : (acc x).drop n = a :: (acc x).drop (n + 1) := by
        rw [List.drop_eq_getElem_cons hlt, (List.getElem?_eq_some_iff.mp ha).2]
      obtain ⟨u₁, hu₁, m₁, hrun₁, hmax₁, hm₁⟩ : ∃ u₁ ≤ a.steps, ∃ m₁,
          soloRun acc new m (.merging k x n 0 false) u₁ = (m₁, .merging k x (n + 1) 0 false) ∧
            m₁.maxEntries = m.maxEntries ∧
            ∀ j, m₁.lookupElem j = if j = k then some (a.apply r) else m.lookupElem j := by
        cases a with
        | rmw f =>
          refine ⟨1, le_rfl, storeAt m k f, by simp [soloRun, threadStep, ha], by simp,
            fun j => ?_⟩
          rw [lookupElem_storeAt, hr]
          rfl
        | testStore ts st =>
          obtain ⟨u, hu, hrun⟩ := soloRun_probe acc new ha hr 0 (Nat.zero_le _)
          refine ⟨u, hu, _, hrun, by split_ifs <;> simp, fun j => ?_⟩
          rw [List.drop_zero, Access.apply]
          by_cases hany : ts.any (· r)
          · rw [if_pos hany, if_pos hany, lookupElem_storeAt, hr]
            rfl
          · rw [if_neg hany, if_neg hany]
            split_ifs with hj
            · rw [hj, hr]
            · rfl
      obtain ⟨u₂, hu₂, m', hrun₂, hmax₂, hm'⟩ :=
        soloRun_merging k x (n + 1) m₁ (a.apply r) (by rw [hm₁, if_pos rfl])
      refine ⟨u₁ + u₂, ?_, m', by rw [soloRun_add, hrun₁, hrun₂], hmax₂.trans hmax₁, fun j => ?_⟩
      · rw [hdrop, List.map_cons, List.sum_cons]
        omega
      · rw [hm', hm₁, hdrop]
        split_ifs <;> rfl
termination_by n => (acc x).length - n
decreasing_by omega

/-- An invocation alone leaves a table no helper tells apart from the sequential upsert of its
sample, the merge being its accesses run one after another, and returns. -/
theorem soloRun_fuel (m : BpfMap K R) (k : K) (x : X) : ∃ o,
    (soloRun acc new m (.lookup k x) (fuel acc x)).2 = .done k x o ∧
      (soloRun acc new m (.lookup k x) (fuel acc x)).1.SameElems
        (upsert m k (seqApply (acc x)) (new x)) := by
  obtain ⟨u, hu, m', o, hrun, hsame⟩ : ∃ u ≤ fuel acc x, ∃ m' o,
      soloRun acc new m (.lookup k x) u = (m', .done k x o) ∧
        m'.SameElems (upsert m k (seqApply (acc x)) (new x)) := by
    cases hk : m.lookupElem k with
    | none =>
      refine ⟨2, by simp [fuel], (m.updateElem k (new x) .noexist).2,
        if (m.updateElem k (new x) .noexist).1 = 0 then .inserted else .lost,
        by simp [soloRun, threadStep, hk], ?_⟩
      simpa [upsert, hk] using BpfMap.SameElems.refl _
    | some r =>
      obtain ⟨u, hu, m', hrun, hmax, hm'⟩ := soloRun_merging acc new k x 0 m r hk
      refine ⟨u + 1, by simp only [fuel, List.drop_zero] at hu ⊢; omega, m', .merged,
        by simp [soloRun, threadStep, hk, hrun], ?_⟩
      have hm : k ∈ m.elems := BpfMap.mem_iff_lookupElem.mpr (by simp [hk])
      have hup : upsert m k (seqApply (acc x)) (new x) = m.put k (seqApply (acc x) r) (.inl hm) := by
        simp [upsert, hk, BpfMap.writeElem_of_mem _ _ _ hm]
      rw [hup]
      exact ⟨hmax, fun j => by rw [hm', BpfMap.lookupElem_put, List.drop_zero]⟩
  rw [show fuel acc x = u + (fuel acc x - u) by omega, soloRun_add, hrun, soloRun_done]
  exact ⟨o, rfl, hsame⟩

/-- Folding samples in keeps tables no helper tells apart alike. -/
theorem sameElems_foldl (merge : X → R → R) : ∀ (xs : List (K × X)) {m m' : BpfMap K R},
    m.SameElems m' → (xs.foldl (upsertSample merge new) m).SameElems
      (xs.foldl (upsertSample merge new) m')
  | [], _, _, h => h
  | kx :: xs, _, _, h => sameElems_foldl merge xs (sameElems_upsert h kx.1 _ _)

/-- Invocations `i`, `i + 1`, … not started, run one at a time, leave a table no helper tells
apart from the sequential fold of their samples. -/
theorem sysRun_inTurn : ∀ (invs : List (K × X)) (s : Sys K X R) (i : Nat),
    (∀ j kx, invs[j]? = some kx → s.threads[i + j]? = some (.lookup kx.1 kx.2)) →
      (sysRun acc new s (inTurn acc i invs)).table.SameElems
        (invs.foldl (upsertSample (fun x r => seqApply (acc x) r) new) s.table)
  | [], s, _, _ => BpfMap.SameElems.refl _
  | kx :: invs, s, i, hth => by
    have hp : s.threads[i]? = some (.lookup kx.1 kx.2) := hth 0 kx (by simp)
    obtain ⟨o, -, hsame⟩ := soloRun_fuel acc new s.table kx.1 kx.2
    rw [inTurn, sysRun_append, sysRun_replicate acc new _ s i _ hp]
    exact (sysRun_inTurn invs _ (i + 1) (getElem?_set_succ hp _ hth)).trans
      (sameElems_foldl new _ invs hsame)

end Alone

/-- A program's merge branch is the accesses `acc` run one after another, and its invocations in
the atomic-step model, run one at a time over the samples of a sequential run, leave a table no
helper tells apart from the one that run leaves. -/
def SerialLaw {S E : Type} (P : AccumProgram S E K X R) (acc : X → List (Access R)) (init : S) :
    Prop :=
  (∀ x r, P.merge x r = seqApply (acc x) r) ∧ ∀ es,
    (sysRun acc P.new (Sys.init (P.accum init).maxEntries (P.samples init es))
      (inTurn acc 0 (P.samples init es))).table.SameElems (P.accum (P.run init es))

/-- A program whose merge branch is its accesses has the serial law from an empty table. -/
theorem serialLaw {S E : Type} {P : AccumProgram S E K X R} {acc : X → List (Access R)}
    (hseq : ∀ x r, P.merge x r = seqApply (acc x) r) (init : S)
    (hinit : ∀ k, (P.accum init).lookupElem k = none) : SerialLaw P acc init := by
  refine ⟨hseq, fun es => ?_⟩
  have hmerge : (fun x r => seqApply (acc x) r) = P.merge := funext fun x => funext fun r => (hseq x r).symm
  have h := sysRun_inTurn acc P.new (P.samples init es)
    (Sys.init (P.accum init).maxEntries (P.samples init es)) 0 fun j kx hj => by
      simp [Sys.init, hj]
  rw [hmerge, P.accum_run] at *
  exact h.trans (sameElems_foldl P.new _ _ ⟨rfl, fun k => by simp [Sys.init, hinit k]⟩)

end XtopEbpf.Atomic
