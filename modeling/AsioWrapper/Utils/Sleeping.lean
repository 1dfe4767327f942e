import AsioWrapper.Foundation.Steps
import Mathlib.Algebra.Group.Int.Defs
import Mathlib.Algebra.Group.Nat.Defs

/-!
# Sleeping

`Thread::SleepFor` calls `nanosleep` again with the remaining time whenever a
signal interrupts it.  The kernel refuses a request whose nanoseconds are out of
range, sleeps no shorter than asked for, and reports how much is left.
-/

namespace AsioWrapper.Utils

open AsioWrapper.Foundation

/-! ## Times -/

structure Timespan where
  duration : Int64
  deriving DecidableEq, Repr

namespace Timespan

def seconds (timespan : Timespan) : Int64 := timespan.duration / 1000000000

def nanoseconds (timespan : Timespan) : Int64 := timespan.duration

def total (timespan : Timespan) : Int64 := timespan.duration

def milliseconds (milliseconds : Int64) : Timespan := ⟨milliseconds * 1000000⟩

end Timespan

structure Timestamp where
  timestamp : UInt64
  deriving DecidableEq, Repr

namespace Timestamp

def epoch : UInt64 := 0

def total (timestamp : Timestamp) : UInt64 := timestamp.timestamp

def utcTimestamp : Timestamp := ⟨epoch⟩

/-- The difference is taken modulo 2⁶⁴ and read as a signed number. -/
def sub (timestamp1 timestamp2 : Timestamp) : Timespan :=
  ⟨(timestamp1.total - timestamp2.total).toInt64⟩

end Timestamp

/-! ## The system call -/

structure Timespec where
  sec : Int64
  nsec : Int64
  deriving DecidableEq, Repr

def Timespec.total (t : Timespec) : Int := t.sec.toInt * 1000000000 + t.nsec.toInt

def Timespec.valid (t : Timespec) : Bool :=
  decide (0 ≤ t.sec.toInt ∧ 0 ≤ t.nsec.toInt ∧ t.nsec.toInt < 1000000000)

inductive Answer where
  | slept (time : Nat)
  | interrupted (time : Nat) (rem : Timespec)
  | refused
  deriving DecidableEq, Repr

def Timespec.answers (req : Timespec) : Answer → Bool
  | .slept time => req.valid && decide (req.total ≤ time)
  | .interrupted time rem => req.valid && rem.valid && decide (req.total ≤ time + rem.total)
  | .refused => !req.valid

/-! ## Sleeping -/

inductive Sleeper where
  | sleeping (req : Timespec) (slept : Nat)
  | returned (slept : Nat)
  deriving DecidableEq, Repr

def sleepFor (timespan : Timespan) : Sleeper :=
  if timespan.total < 0 then
    .returned 0
  else if timespan.total = 0 then
    -- `Yield`
    .returned 0
  else
    .sleeping ⟨timespan.seconds, timespan.nanoseconds % 1000000000⟩ 0

def sleep (milliseconds : Int64) : Sleeper := sleepFor (.milliseconds milliseconds)

def sleepUntil (timestamp : Timestamp) : Sleeper := sleepFor (timestamp.sub .utcTimestamp)

def Sleeper.step : Sleeper → Answer → Option Sleeper
  | .sleeping req slept, answer =>
      if req.answers answer then
        match answer with
        | .slept time => some (.returned (slept + time))
        | .interrupted time rem => some (.sleeping rem (slept + time))
        | .refused => some (.returned slept)
      else
        none
  | .returned _, _ => none

private theorem request_total {timespan : Timespan} (h : 0 ≤ timespan.total.toInt) :
    Timespec.valid ⟨timespan.seconds, timespan.nanoseconds % 1000000000⟩ = true ∧
      Timespec.total ⟨timespan.seconds, timespan.nanoseconds % 1000000000⟩ =
        timespan.total.toInt := by
  have hbillion : (1000000000 : Int64).toInt = 1000000000 := rfl
  have hlt := timespan.duration.toInt_lt
  change 0 ≤ timespan.duration.toInt at h
  have hsec : timespan.seconds.toInt = timespan.duration.toInt / 1000000000 := by
    rw [Timespan.seconds, Int64.toInt_div, hbillion, Int.tdiv_eq_ediv_of_nonneg h]
    apply Int.bmod_eq_of_le_mul_two
    · omega
    · omega
  have hnsec : (timespan.nanoseconds % 1000000000).toInt =
      timespan.duration.toInt % 1000000000 := by
    rw [Timespan.nanoseconds, Int64.toInt_mod, hbillion, Int.tmod_eq_emod_of_nonneg h]
  constructor
  · simp only [Timespec.valid, hsec, hnsec, decide_eq_true_eq]
    omega
  · simp only [Timespec.total, hsec, hnsec, Timespan.total]
    omega

/-- What has been slept and what is still asked for make up the time. -/
def Sleeper.Covers (time : Int) : Sleeper → Prop
  | .sleeping req slept => req.valid = true ∧ time ≤ slept + req.total
  | .returned slept => time ≤ slept

private theorem sleepFor_covers (timespan : Timespan) :
    (sleepFor timespan).Covers timespan.total.toInt := by
  unfold sleepFor
  split
  · rename_i hneg
    rw [Int64.lt_iff_toInt_lt] at hneg
    change timespan.total.toInt ≤ 0
    exact Int.le_of_lt hneg
  · split
    · rename_i hzero
      rw [hzero]
      exact Int.le_refl 0
    · rename_i hneg _
      rw [Int64.lt_iff_toInt_lt] at hneg
      change ¬timespan.total.toInt < 0 at hneg
      obtain ⟨hvalid, htotal⟩ := request_total (Int.not_lt.mp hneg)
      refine ⟨hvalid, ?_⟩
      rw [htotal]
      omega

theorem Sleeper.Covers.step {time : Int} {s s' : Sleeper} {answer : Answer} (hs : s.Covers time)
    (h : s.step answer = some s') : s'.Covers time ∧ answer ≠ .refused := by
  cases s with
  | returned slept => cases h
  | sleeping req slept =>
      obtain ⟨hvalid, htime⟩ := hs
      simp only [Sleeper.step] at h
      split at h
      · rename_i hanswers
        cases answer with
        | slept t =>
            cases h
            simp only [Timespec.answers, hvalid, Bool.true_and, decide_eq_true_eq] at hanswers
            refine ⟨?_, by simp⟩
            simp only [Covers]
            omega
        | interrupted t rem =>
            cases h
            simp only [Timespec.answers, hvalid, Bool.true_and, Bool.and_eq_true,
              decide_eq_true_eq] at hanswers
            refine ⟨⟨hanswers.1, ?_⟩, by simp⟩
            omega
        | refused =>
            simp [Timespec.answers, hvalid] at hanswers
      · cases h

def Sleeper.hasReturned : Sleeper → Bool
  | .returned _ => true
  | .sleeping _ _ => false

def Answer.isSlept : Answer → Bool
  | .slept _ => true
  | _ => false

private theorem sleepFor_hasReturned (timespan : Timespan) :
    (sleepFor timespan).hasReturned = decide (timespan.total.toInt ≤ 0) := by
  have hlt : timespan.total < 0 ↔ timespan.total.toInt < 0 := Int64.lt_iff_toInt_lt
  have heq : timespan.total = 0 ↔ timespan.total.toInt = 0 := Int64.toInt_inj.symm
  unfold sleepFor
  split
  · rename_i hneg
    have := hlt.mp hneg
    exact (decide_eq_true (by omega)).symm
  · split
    · rename_i hzero
      exact (decide_eq_true (Int.le_of_eq (heq.mp hzero))).symm
    · rename_i hneg hzero
      rw [hlt] at hneg
      rw [heq] at hzero
      exact (decide_eq_false (by omega)).symm

/-- The invariant carried through a run: no round is refused, and the first one that is not
interrupted is the last. -/
theorem Sleeper.Covers.run {time : Int} {s s' : Sleeper} {answers : List Answer}
    (hs : s.Covers time) (hrun : Steps.run Sleeper.step s answers = some s') :
    s'.Covers time ∧ .refused ∉ answers ∧
      s'.hasReturned = (s.hasReturned || answers.any Answer.isSlept) := by
  induction answers generalizing s with
  | nil =>
      cases hrun
      refine ⟨hs, by simp, ?_⟩
      rw [List.any_nil, Bool.or_false]
  | cons answer answers ih =>
      cases hstep : s.step answer with
      | none => simp [Steps.run, hstep] at hrun
      | some next =>
          simp only [Steps.run, hstep] at hrun
          obtain ⟨hnext, hrefused⟩ := hs.step hstep
          obtain ⟨hlast, hnone, hreturned⟩ := ih hnext hrun
          refine ⟨hlast, ?_, ?_⟩
          · intro hmem
            rcases List.mem_cons.mp hmem with heq | hmem
            · exact hrefused heq.symm
            · exact hnone hmem
          · cases s with
            | returned slept => cases hstep
            | sleeping req slept =>
                simp only [Sleeper.step] at hstep
                split at hstep
                · cases answer with
                  | slept t =>
                      cases hstep
                      rw [hreturned]
                      rfl
                  | interrupted t rem =>
                      cases hstep
                      exact hreturned
                  | refused => exact absurd rfl hrefused
                · cases hstep

private theorem toInt_sub_utcTimestamp {timestamp : Timestamp}
    (h : timestamp.total.toNat < 2 ^ 63) :
    (timestamp.sub .utcTimestamp).total.toInt = timestamp.total.toNat := by
  have hzero : timestamp.total - Timestamp.utcTimestamp.total = timestamp.total :=
    UInt64.sub_zero _
  change (timestamp.total - Timestamp.utcTimestamp.total).toBitVec.toInt = _
  rw [hzero, BitVec.toInt_eq_toNat_bmod]
  change (timestamp.total.toNat : Int).bmod _ = _
  apply Int.bmod_eq_of_le_mul_two
  · omega
  · omega

/--
However often it is interrupted, `SleepFor` makes no request that the kernel refuses, returns
with the first call that is not interrupted and never too early; so do `Sleep`, unless its
argument overflows, and `SleepUntil`, which sleeps for all the time since the epoch whatever
the time is.
-/
theorem sleep_never_short :
    (∀ (timespan : Timespan) (answers : List Answer) (s : Sleeper),
      Steps.run Sleeper.step (sleepFor timespan) answers = some s → .refused ∉ answers ∧
        (∀ slept, s = .returned slept → timespan.total.toInt ≤ slept) ∧
        s.hasReturned = (decide (timespan.total.toInt ≤ 0) || answers.any Answer.isSlept)) ∧
    (∀ (milliseconds : Int64) (answers : List Answer) (slept : Nat),
      0 ≤ milliseconds.toInt → milliseconds.toInt * 1000000 < 2 ^ 63 →
      Steps.run Sleeper.step (sleep milliseconds) answers = some (.returned slept) →
        milliseconds.toInt * 1000000 ≤ slept) ∧
    ∀ (timestamp : Timestamp) (answers : List Answer) (slept : Nat),
      timestamp.total.toNat < 2 ^ 63 →
      Steps.run Sleeper.step (sleepUntil timestamp) answers = some (.returned slept) →
        timestamp.total.toNat ≤ slept := by
  refine ⟨fun timespan answers s hrun => ?_, fun milliseconds answers slept hnonneg hlt hrun => ?_,
    fun timestamp answers slept hlt hrun => ?_⟩
  · obtain ⟨hlast, hrefused, hreturned⟩ := (sleepFor_covers timespan).run hrun
    refine ⟨hrefused, ?_, ?_⟩
    · rintro slept rfl
      exact hlast
    · rw [hreturned, sleepFor_hasReturned]
  · have hlast := ((sleepFor_covers _).run hrun).1
    have htotal : (Timespan.milliseconds milliseconds).total.toInt =
        milliseconds.toInt * 1000000 := by
      change (milliseconds * 1000000).toInt = _
      rw [Int64.toInt_mul]
      apply Int.bmod_eq_of_le_mul_two
      · change _ ≤ milliseconds.toInt * 1000000 * 2
        omega
      · change milliseconds.toInt * 1000000 * 2 < _
        omega
    rw [htotal] at hlast
    exact hlast
  · have hlast := ((sleepFor_covers _).run hrun).1
    rw [toInt_sub_utcTimestamp hlt] at hlast
    exact Int.ofNat_le.mp hlast

theorem sleep_never_short_interrupted :
    Steps.run Sleeper.step (sleep 1500)
        [.interrupted 400000000 ⟨1, 100000000⟩, .interrupted 1050000000 ⟨0, 50000000⟩,
          .slept 50000001] = some (.returned 1500000001) ∧
      (1500 : Int64).toInt * 1000000 ≤ 1500000001 ∧
      Steps.run Sleeper.step (sleepUntil ⟨2000000001⟩) [.slept 2000000001] =
        some (.returned 2000000001) ∧
      (2000000001 : UInt64).toNat ≤ 2000000001 ∧
      (Sleeper.sleeping ⟨0, 1⟩ 3).hasReturned =
        (decide ((4 : Int64).toInt ≤ 0) || [Answer.interrupted 3 ⟨0, 1⟩].any Answer.isSlept) := by
  obtain ⟨hsleepFor, hsleep, huntil⟩ := sleep_never_short
  have hrun : Steps.run Sleeper.step (sleep 1500)
      [.interrupted 400000000 ⟨1, 100000000⟩, .interrupted 1050000000 ⟨0, 50000000⟩,
        .slept 50000001] = some (.returned 1500000001) := by decide
  have huntilRun : Steps.run Sleeper.step (sleepUntil ⟨2000000001⟩) [.slept 2000000001] =
      some (.returned 2000000001) := by decide
  exact ⟨hrun, hsleep 1500 _ _ (by decide) (by decide) hrun, huntilRun,
    huntil ⟨2000000001⟩ _ _ (by decide) huntilRun,
    (hsleepFor ⟨4⟩ [.interrupted 3 ⟨0, 1⟩] _ (by decide)).2.2⟩

end AsioWrapper.Utils
