import XtopEbpf.Pairing
import Mathlib.Data.Nat.Log

/-!
# Block IO latency

`iolatency.c` pairs `block_rq_issue` with `block_rq_complete` under the
request's `rq_key`: its device and sector, and the 4 padding bytes between
them, which the key's designated initializer leaves as the stack held them. The entry carries the issuing pid; the completion
deletes the entry before it drops zero durations and pid 0, and applies no
staleness ceiling. Each sample adds to its pid's totals and to one of sixteen
logarithmic histogram slots, chosen by the unrolled halving loop `log2_slot`.
-/

namespace XtopEbpf.BlockIo

open Runtime Accumulate Pairing

/-- `HIST_SLOTS`. -/
def HIST_SLOTS : Nat := 16

/-- `struct rq_key`: `dev`, the 4 unnamed padding bytes that align `sector` to 8 bytes, then
`sector`. All 16 bytes are the key the map hashes and compares. -/
structure RqKey where
  /-- `dev`. -/
  dev : U32
  /-- The padding after `dev`. -/
  pad : U32
  /-- `sector`. -/
  sector : U64
  deriving DecidableEq, Repr

/-- `struct rq_start`. -/
structure RqStart where
  /-- `pid` of the issuing process. -/
  pid : U32
  /-- `start_ns`. -/
  startNs : U64
  deriving DecidableEq, Repr

/-- `struct iolat_val`. -/
structure IolatVal where
  /-- `total_ns`. -/
  totalNs : U64
  /-- `max_ns`. -/
  maxNs : U64
  /-- `count`. -/
  count : U32
  /-- `slots[HIST_SLOTS]`. -/
  slots : Fin 16 → U32
  /-- `dev`, set by the insert branch only. -/
  dev : U32
  deriving Inhabited

/-- The iterations of `log2_slot`'s loop still to run, with the value and slot so far. -/
def log2SlotLoop : Nat → U64 → U32 → U32
  | 0, _, slot => slot
  | n + 1, v, slot => if v > 1 then log2SlotLoop n (v >>> 1) (slot + 1) else log2SlotLoop n v slot

/-- `log2_slot`: fifteen iterations of "halve while above 1", then the clamp to 15. -/
def log2Slot (us : U64) : U32 :=
  let slot := log2SlotLoop (HIST_SLOTS - 1) us 0
  if slot ≥ 16 then 15 else slot

/-- `slot & (HIST_SLOTS - 1)` as an index of `slots`. -/
def slotIndex (slot : U32) : Fin 16 := ⟨(slot &&& 15).toNat % 16, Nat.mod_lt _ (by decide)⟩

/-- Each iteration halves a value above 1 and counts it: the loop adds the value's base-2
logarithm, capped at the iterations left. -/
theorem toNat_log2SlotLoop : ∀ (n : Nat) (v : U64) (slot : U32), slot.toNat + n < 2 ^ 32 →
    (log2SlotLoop n v slot).toNat = slot.toNat + min (Nat.log 2 v.toNat) n
  | 0, _, _, _ => by simp [log2SlotLoop]
  | n + 1, v, slot, h => by
    unfold log2SlotLoop
    split_ifs with hv
    · have hv₂ : 2 ≤ v.toNat := by rw [gt_iff_lt, BitVec.lt_def] at hv; simpa using hv
      have hslot : (slot + 1).toNat = slot.toNat + 1 := by
        rw [BitVec.toNat_add]
        exact Nat.mod_eq_of_lt (show slot.toNat + 1 < 2 ^ 32 by omega)
      have hhalf : (v >>> 1).toNat = v.toNat / 2 := by
        rw [BitVec.toNat_ushiftRight, Nat.shiftRight_eq_div_pow, pow_one]
      have hlog := Nat.log_pos (b := 2) (by decide) hv₂
      rw [toNat_log2SlotLoop n _ _ (by omega), hslot, hhalf, Nat.log_div_base]
      omega
    · have hlog : Nat.log 2 v.toNat = 0 :=
        Nat.log_of_lt (by rw [gt_iff_lt, BitVec.lt_def] at hv; simp at hv; omega)
      rw [toNat_log2SlotLoop n _ _ (by omega), hlog]
      simp

/-- The loop stays below 16, so the clamp of `log2_slot` never applies. -/
theorem log2Slot_eq_loop (us : U64) : log2Slot us = log2SlotLoop (HIST_SLOTS - 1) us 0 := by
  have h := toNat_log2SlotLoop (HIST_SLOTS - 1) us 0 (by decide)
  unfold log2Slot
  rw [if_neg]
  rw [ge_iff_le, BitVec.le_def, h]
  simp [HIST_SLOTS]

/-- The slot is the base-2 logarithm of the duration, capped at 15. -/
theorem toNat_log2Slot (us : U64) : (log2Slot us).toNat = min (Nat.log 2 us.toNat) 15 := by
  rw [log2Slot_eq_loop, toNat_log2SlotLoop _ _ _ (by decide)]
  simp [HIST_SLOTS]

/-- Masking a slot below 16 with `HIST_SLOTS - 1` keeps it. -/
theorem slotIndex_val {slot : U32} (h : slot.toNat < 16) : (slotIndex slot).val = slot.toNat := by
  have hand : slot.toNat &&& 15 = slot.toNat := Nat.and_pow_two_sub_one_of_lt_two_pow (n := 4) h
  simp [slotIndex, BitVec.toNat_and, hand, Nat.mod_eq_of_lt h]

/-- `log2_slot` is the floor of the base-2 log capped at 15, as its unrolled loop computes it,
monotone in the duration, and the histogram slot it picks is the power-of-two bucket of the
duration, the last one open above. -/
theorem log2_slot_caps_log :
    (∀ us : U64, (log2Slot us).toNat = if us.toNat ≤ 1 then 0 else min (Nat.log 2 us.toNat) 15) ∧
    (∀ us : U64, (log2Slot us).toNat < HIST_SLOTS ∧
      (slotIndex (log2Slot us)).val = (log2Slot us).toNat ∧
      log2Slot us = log2SlotLoop (HIST_SLOTS - 1) us 0) ∧
    (∀ us us' : U64, us ≤ us' → log2Slot us ≤ log2Slot us') ∧
    (∀ (us : U64) (b : Nat), 1 ≤ b → b ≤ 14 →
      ((slotIndex (log2Slot us)).val = b ↔ 2 ^ b ≤ us.toNat ∧ us.toNat < 2 ^ (b + 1))) ∧
    ∀ us : U64, (slotIndex (log2Slot us)).val = 15 ↔ 32768 ≤ us.toNat := by
  have hlt : ∀ us, (log2Slot us).toNat < 16 := fun us => by rw [toNat_log2Slot]; omega
  refine ⟨fun us => ?_, fun us => ⟨hlt us, slotIndex_val (hlt us), log2Slot_eq_loop us⟩,
    fun us us' h => ?_, fun us b hb₁ hb₂ => ?_, fun us => ?_⟩
  · rw [toNat_log2Slot]
    split_ifs with h
    · rw [Nat.log_of_lt (by omega)]
      rfl
    · rfl
  · rw [BitVec.le_def, toNat_log2Slot, toNat_log2Slot] at *
    exact min_le_min_right 15 (Nat.log_mono_right h)
  · rw [slotIndex_val (hlt us), toNat_log2Slot, ← Nat.log_eq_iff (.inl (by omega))]
    omega
  · rw [slotIndex_val (hlt us), toNat_log2Slot]
    by_cases hz : us.toNat = 0
    · simp [hz]
    · rw [show (32768 : Nat) = 2 ^ 15 from rfl, Nat.pow_le_iff_le_log (by decide) hz]
      omega

/-- The spec's sample points: 0, 1, 2, 4 and 16384 microseconds. -/
example : (log2Slot 0, log2Slot 1, log2Slot 2, log2Slot 4, log2Slot 16384) = (0, 0, 1, 2, 14) := by
  decide

/-- One completed request's sample: its latency and its device. -/
structure Sample where
  /-- `delta`. -/
  delta : U64
  /-- `ctx->dev` of the completion. -/
  dev : U32
  deriving DecidableEq, Repr

/-- The merge branch of `handle_block_rq_complete`. -/
def merge (x : Sample) (val : IolatVal) : IolatVal :=
  let slot := slotIndex (log2Slot (x.delta / 1000))
  { val with totalNs := val.totalNs + x.delta, count := val.count + 1,
             slots := Function.update val.slots slot (val.slots slot + 1),
             maxNs := if x.delta > val.maxNs then x.delta else val.maxNs }

/-- The `new_val` of `handle_block_rq_complete`: zeroed, then its fields set. -/
def new (x : Sample) : IolatVal :=
  { totalNs := x.delta, maxNs := x.delta, count := 1, dev := x.dev,
    slots := Function.update (fun _ => 0) (slotIndex (log2Slot (x.delta / 1000))) 1 }

/-- The maps of `iolatency.c`. -/
structure Iolatency where
  /-- `inflight`: request to its issue. -/
  inflight : BpfMap RqKey RqStart
  /-- `iolat_hist`: pid to latency totals and histogram. -/
  iolatHist : BpfMap U32 IolatVal

namespace Iolatency

/-- The maps as the loader creates them. -/
def init : Iolatency := ⟨.empty 10240, .empty 10240⟩

/-- `struct rq_key key = { .dev = dev, .sector = sector };`: the designated initializer sets
the two fields, and the padding bytes keep `pad`, what the invocation's stack held there. -/
def keyOf (dev : U32) (sector : U64) (pad : U32) : RqKey := ⟨dev, pad, sector⟩

/-- Invocations of `iolatency.c`; `pad` is what the stack holds where the key's padding goes. -/
inductive Event where
  /-- `block_rq_issue`. -/
  | blockRqIssue (dev : U32) (sector pidTgid now : U64) (pad : U32)
  /-- `block_rq_complete`. -/
  | blockRqComplete (dev : U32) (sector now : U64) (pad : U32)

/-- `handle_block_rq_issue`: no pid filter. -/
def handleBlockRqIssue (s : Iolatency) (dev : U32) (sector pidTgid now : U64) (pad : U32) :
    Iolatency :=
  { s with inflight := (s.inflight.updateElem (keyOf dev sector pad) ⟨tgidOf pidTgid, now⟩ .any).2 }

/-- `handle_block_rq_complete`: zero latencies and pid 0 are dropped after the delete. -/
def handleBlockRqComplete (s : Iolatency) (dev : U32) (sector now : U64) (pad : U32) :
    Iolatency :=
  match s.inflight.lookupElem (keyOf dev sector pad) with
  | none => s
  | some start =>
    let delta := now - start.startNs
    let pid := start.pid
    { inflight := s.inflight.deleteElem (keyOf dev sector pad),
      iolatHist := if delta = 0 ∨ pid = 0 then s.iolatHist
        else upsert s.iolatHist pid (merge ⟨delta, dev⟩) (new ⟨delta, dev⟩) }

/-- One invocation. -/
def step (s : Iolatency) : Event → Iolatency
  | .blockRqIssue dev sector pidTgid now pad => s.handleBlockRqIssue dev sector pidTgid now pad
  | .blockRqComplete dev sector now pad => s.handleBlockRqComplete dev sector now pad

/-- The issue as a begin on the request, the completion as its end. -/
def ops : Event → List (PairOp RqKey RqStart Unit)
  | .blockRqIssue dev sector pidTgid now pad => [.begin (keyOf dev sector pad) ⟨tgidOf pidTgid, now⟩]
  | .blockRqComplete dev sector now pad => [.finish (keyOf dev sector pad) now ()]

/-- What follows the delete in `handle_block_rq_complete`. -/
def tail (c : Completion RqKey RqStart Unit) : Option (U32 × Sample) :=
  if c.now - c.entry.startNs = 0 ∨ c.entry.pid = 0 then none
  else some (c.entry.pid, ⟨c.now - c.entry.startNs, c.key.dev⟩)

end Iolatency

/-- `iolatency.c` as a latency program. -/
def iolatency : LatencyProgram Iolatency Iolatency.Event RqKey RqStart Unit U32 Sample IolatVal where
  start := Iolatency.inflight
  accum := Iolatency.iolatHist
  step := Iolatency.step
  ops := Iolatency.ops
  live _ := true
  time
    | .blockRqIssue _ _ _ now _ | .blockRqComplete _ _ now _ => now
  stamp := RqStart.startNs
  tail := Iolatency.tail
  merge := merge
  new := new
  ops_time e op hop := by
    cases e <;> simp_all [Iolatency.ops, PairOp.time]
  live_of_stamp _ _ := rfl
  step_start s e := by
    cases e with
    | blockRqIssue d sec p t pad => rfl
    | blockRqComplete d sec t pad =>
      simp only [Iolatency.step, Iolatency.handleBlockRqComplete, Iolatency.ops]
      cases h : s.inflight.lookupElem (Iolatency.keyOf d sec pad) <;> simp [pairRun, pairStep, h]
  step_accum s e := by
    cases e with
    | blockRqIssue d sec p t pad => rfl
    | blockRqComplete d sec t pad =>
      simp only [Iolatency.step, Iolatency.handleBlockRqComplete, Iolatency.ops]
      cases h : s.inflight.lookupElem (Iolatency.keyOf d sec pad) with
      | none => simp [pairRun, pairYield, h]
      | some st =>
        simp only [pairRun, pairYield, h, if_true, Option.toList_some, List.append_nil,
          List.filterMap_cons, List.filterMap_nil, Iolatency.tail]
        split_ifs <;> rfl

end XtopEbpf.BlockIo
