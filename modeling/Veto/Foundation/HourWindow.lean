import Mathlib.Algebra.BigOperators.Fin
import Mathlib.Algebra.Order.BigOperators.Group.Finset
import Mathlib.Data.Fintype.BigOperators
import Mathlib.Tactic.Ring

/-!
# A sliding window kept in a ring of hour buckets

Payments are counted per hour in a ring of `N` buckets; the bucket of hour `h`
is `h` modulo `N`, so `N` consecutive hours never share one.  `Tracks` says that
the ring knows every hour of the window that ends with the last one.  From it,
the total of the buckets inside the window is the total of the payments inside
it, unless a bucket has reached the saturation bound `M`.
-/

namespace Veto.Foundation

open Finset

/-- A payment: the hour (or the second) it was made in, and its amount. -/
abbrev Payment := Int × Nat

/-- The sum of the payments that satisfy a condition on their time. -/
def sumWhere (pays : List Payment) (c : Int → Prop) [DecidablePred c] : Nat :=
  ((pays.filter fun p => c p.1).map Prod.snd).sum

@[simp] theorem sumWhere_nil (c : Int → Prop) [DecidablePred c] : sumWhere [] c = 0 := rfl

theorem sumWhere_cons (p : Payment) (pays : List Payment) (c : Int → Prop) [DecidablePred c] :
    sumWhere (p :: pays) c = (if c p.1 then p.2 else 0) + sumWhere pays c := by
  unfold sumWhere
  by_cases h : c p.1
  · simp [h]
  · simp [h]

theorem sumWhere_cons_le (p : Payment) (pays : List Payment) (c : Int → Prop) [DecidablePred c] :
    sumWhere (p :: pays) c ≤ p.2 + sumWhere pays c := by
  rw [sumWhere_cons]
  split
  · exact Nat.le_refl _
  · omega

theorem sumWhere_eq_zero {pays : List Payment} {c : Int → Prop} [DecidablePred c]
    (h : ∀ p ∈ pays, ¬ c p.1) : sumWhere pays c = 0 := by
  have hnone : pays.filter (fun p => c p.1) = [] := by
    rw [List.filter_eq_nil_iff]
    intro p hp
    simpa using h p hp
  unfold sumWhere
  rw [hnone]
  rfl

/-- A wider condition takes in no less. -/
theorem sumWhere_mono {pays : List Payment} {c d : Int → Prop} [DecidablePred c] [DecidablePred d]
    (h : ∀ p ∈ pays, c p.1 → d p.1) : sumWhere pays c ≤ sumWhere pays d := by
  induction pays with
  | nil => exact Nat.le_refl _
  | cons p pays ih =>
      have hrest := ih fun q hq => h q (List.mem_cons_of_mem _ hq)
      rw [sumWhere_cons, sumWhere_cons]
      by_cases hc : c p.1
      · rw [if_pos hc, if_pos (h p List.mem_cons_self hc)]
        omega
      · rw [if_neg hc]
        omega

def amountAt (pays : List Payment) (h : Int) : Nat := sumWhere pays (· = h)

section Ring

variable {N : Nat} [NeZero N]

def slotOf (N : Nat) [NeZero N] (h : Int) : Fin N :=
  ⟨(h % N).toNat, by
    have hpos : (0 : Int) < N := by exact_mod_cast NeZero.pos N
    have hlow := Int.emod_nonneg h hpos.ne'
    have hhigh := Int.emod_lt_of_pos h hpos
    omega⟩

/-- A ring of buckets: each has an hour and an amount. -/
abbrev Buckets (N : Nat) := Fin N → Int × Nat

def bucketAt (ring : Buckets N) (h : Int) : Nat :=
  if (ring (slotOf N h)).1 = h then (ring (slotOf N h)).2 else 0

/-- The hour of the window starting at `oldest` that lives in bucket `i`. -/
def hourIn (oldest : Int) (i : Fin N) : Int := oldest + (i.val - oldest) % N

/-- The total of the buckets of hour `oldest` or later. -/
def windowTotal (ring : Buckets N) (oldest : Int) : Nat :=
  ∑ i, if oldest ≤ (ring i).1 then (ring i).2 else 0

theorem hourIn_bounds (oldest : Int) (i : Fin N) :
    oldest ≤ hourIn oldest i ∧ hourIn oldest i < oldest + N := by
  have hpos : (0 : Int) < N := by exact_mod_cast NeZero.pos N
  have hlow := Int.emod_nonneg (i.val - oldest) hpos.ne'
  have hhigh := Int.emod_lt_of_pos (i.val - oldest) hpos
  unfold hourIn
  omega

theorem slotOf_hourIn (oldest : Int) (i : Fin N) : slotOf N (hourIn oldest i) = i := by
  have hmod : hourIn oldest i % N = i.val := by
    unfold hourIn
    rw [Int.add_emod_emod]
    have hcancel : oldest + (i.val - oldest) = (i.val : Int) := by ring
    rw [hcancel]
    exact Int.emod_eq_of_lt (by omega) (by exact_mod_cast i.isLt)
  apply Fin.ext
  show (hourIn oldest i % N).toNat = i.val
  rw [hmod]
  exact Int.toNat_natCast _

/-- Two hours closer than `N` with the same bucket are the same hour. -/
theorem eq_of_slotOf_eq {h h' : Int} (hslot : slotOf N h = slotOf N h')
    (hclose : h < h' + N) (hclose' : h' < h + N) : h = h' := by
  have hpos : (0 : Int) < N := by exact_mod_cast NeZero.pos N
  have hlow := Int.emod_nonneg h hpos.ne'
  have hlow' := Int.emod_nonneg h' hpos.ne'
  have hval : (h % N).toNat = (h' % N).toNat := congrArg Fin.val hslot
  have hmod : h % N = h' % N := by omega
  obtain ⟨k, hk⟩ : (N : Int) ∣ h - h' := by
    have hdiv := Int.mul_ediv_add_emod h N
    have hdiv' := Int.mul_ediv_add_emod h' N
    refine ⟨h / N - h' / N, ?_⟩
    rw [Int.mul_sub]
    omega
  have hk0 : k = 0 := by
    by_contra hne
    rcases lt_or_gt_of_ne hne with hneg | hkpos
    · have : (N : Int) * k ≤ N * (-1) := by
        exact Int.mul_le_mul_of_nonneg_left (by omega) hpos.le
      omega
    · have : (N : Int) * 1 ≤ N * k := by
        exact Int.mul_le_mul_of_nonneg_left (by omega) hpos.le
      omega
  rw [hk0] at hk
  omega

theorem hourIn_slotOf {oldest h : Int} (hlow : oldest ≤ h) (hhigh : h < oldest + N) :
    hourIn oldest (slotOf N h) = h := by
  have hb := hourIn_bounds oldest (slotOf N h)
  exact eq_of_slotOf_eq (slotOf_hourIn oldest (slotOf N h)) (by omega) (by omega)

/-! ## Tracking -/

/-- The ring knows the window of `N` hours that ends with `last`: a bucket in
use carries an hour of its own that has passed, and every hour of the window is
counted in full or up to the saturation bound. -/
structure Tracks (M : Nat) (ring : Buckets N) (last : Int) (pays : List Payment) : Prop where
  recent : ∀ p ∈ pays, p.1 ≤ last
  placed : ∀ i, (ring i).2 ≠ 0 → slotOf N (ring i).1 = i ∧ (ring i).1 ≤ last
  counted : ∀ h, last - N < h → h ≤ last → bucketAt ring h = min M (amountAt pays h)

theorem Tracks.empty {M : Nat} {ring : Buckets N} (hzero : ∀ i, (ring i).2 = 0) (last : Int) :
    Tracks M ring last [] where
  recent := by
    intro p hp
    cases hp
  placed i hi := absurd (hzero i) hi
  counted h _ _ := by
    unfold bucketAt amountAt
    rw [hzero, sumWhere_nil]
    simp

theorem Tracks.advance {M : Nat} {ring : Buckets N} {last last' : Int} {pays : List Payment}
    (ht : Tracks M ring last pays) (hle : last ≤ last') : Tracks M ring last' pays where
  recent p hp := (ht.recent p hp).trans hle
  placed i hi := ⟨(ht.placed i hi).1, (ht.placed i hi).2.trans hle⟩
  counted h hlow hhigh := by
    by_cases hh : h ≤ last
    · exact ht.counted h (by omega) hh
    · have hpays : amountAt pays h = 0 := by
        refine sumWhere_eq_zero fun p hp heq => ?_
        have := ht.recent p hp
        omega
      have hring : bucketAt ring h = 0 := by
        unfold bucketAt
        split
        · rename_i heq
          by_contra hne
          have := (ht.placed _ hne).2
          omega
        · rfl
      rw [hpays, hring]
      simp

/-- A payment in the current hour: the bucket is taken over when it is unused
or has left the window, and grows up to the bound otherwise. -/
def recordIn (M : Nat) (ring : Buckets N) (hour : Int) (amount : Nat) : Buckets N :=
  Function.update ring (slotOf N hour)
    (if (ring (slotOf N hour)).2 = 0 ∨ (ring (slotOf N hour)).1 ≤ hour - N then
      (hour, min M amount)
    else ((ring (slotOf N hour)).1, min M ((ring (slotOf N hour)).2 + amount)))

/-- A payment adds at most its amount to the total of any window. -/
theorem windowTotal_recordIn_le (M : Nat) (ring : Buckets N) (hour oldest : Int) (amount : Nat) :
    windowTotal (recordIn M ring hour amount) oldest ≤ windowTotal ring oldest + amount := by
  have hbucket : ∀ i : Fin N,
      (if oldest ≤ (recordIn M ring hour amount i).1 then (recordIn M ring hour amount i).2 else 0) ≤
        (if oldest ≤ (ring i).1 then (ring i).2 else 0) +
          (if i = slotOf N hour then amount else 0) := by
    intro i
    by_cases hi : i = slotOf N hour
    · subst hi
      unfold recordIn
      rw [Function.update_self, if_pos rfl]
      split <;> split <;> omega
    · unfold recordIn
      rw [Function.update_of_ne hi, if_neg hi]
      exact Nat.le_refl _
  calc windowTotal (recordIn M ring hour amount) oldest
      ≤ ∑ i, ((if oldest ≤ (ring i).1 then (ring i).2 else 0) +
          (if i = slotOf N hour then amount else 0)) := Finset.sum_le_sum fun i _ => hbucket i
    _ = windowTotal ring oldest + amount := by
      rw [Finset.sum_add_distrib, Finset.sum_ite_eq' Finset.univ (slotOf N hour),
        if_pos (Finset.mem_univ _)]
      rfl

/-- A bucket that is in use and inside the window is the bucket of the current hour. -/
theorem Tracks.hour_eq {M : Nat} {ring : Buckets N} {last : Int} {pays : List Payment}
    (ht : Tracks M ring last pays) (huse : (ring (slotOf N last)).2 ≠ 0)
    (hwin : last - N < (ring (slotOf N last)).1) : (ring (slotOf N last)).1 = last := by
  obtain ⟨hslot, hle⟩ := ht.placed _ huse
  have hpos : (0 : Int) < N := by exact_mod_cast NeZero.pos N
  exact eq_of_slotOf_eq hslot (by omega) (by omega)

theorem Tracks.record {M : Nat} {ring : Buckets N} {hour : Int} {pays : List Payment}
    (hM : 0 < M) (ht : Tracks M ring hour pays) (amount : Nat) :
    Tracks M (recordIn M ring hour amount) hour ((hour, amount) :: pays) := by
  have hpos : (0 : Int) < N := by exact_mod_cast NeZero.pos N
  -- the bucket of the current hour after the payment, in either case
  have hbucket : recordIn M ring hour amount (slotOf N hour) =
      (hour, min M (amountAt pays hour + amount)) := by
    unfold recordIn
    rw [Function.update_self]
    have hcount := ht.counted hour (by omega) le_rfl
    unfold bucketAt at hcount
    split
    · rename_i hreset
      have hnone : amountAt pays hour = 0 := by
        by_cases hh : (ring (slotOf N hour)).1 = hour
        · rw [if_pos hh] at hcount
          omega
        · rw [if_neg hh] at hcount
          omega
      rw [hnone, Nat.zero_add]
    · rename_i hkeep
      rw [not_or] at hkeep
      have hh := ht.hour_eq hkeep.1 (by omega)
      rw [if_pos hh] at hcount
      rw [hh, hcount]
      congr 1
      omega
  have hother : ∀ i, i ≠ slotOf N hour → recordIn M ring hour amount i = ring i := fun i hi =>
    Function.update_of_ne hi _ _
  constructor
  · intro p hp
    rcases List.mem_cons.mp hp with rfl | hp
    · exact le_rfl
    · exact ht.recent p hp
  · intro i hi
    by_cases hslot : i = slotOf N hour
    · subst hslot
      rw [hbucket]
      exact ⟨rfl, le_rfl⟩
    · rw [hother i hslot] at hi ⊢
      exact ht.placed i hi
  · intro h hlow hhigh
    unfold amountAt
    rw [sumWhere_cons]
    by_cases hh : h = hour
    · subst hh
      unfold bucketAt
      rw [hbucket, if_pos rfl, if_pos rfl, Nat.add_comm amount]
      rfl
    · have hslot : slotOf N h ≠ slotOf N hour := fun heq =>
        hh (eq_of_slotOf_eq heq (by omega) (by omega))
      rw [if_neg (Ne.symm hh), Nat.zero_add]
      unfold bucketAt
      rw [hother _ hslot]
      exact ht.counted h hlow hhigh

/-! ## Reading the window -/

/-- One payment falls into exactly one bucket of the window, or before it. -/
theorem sum_hourIn_eq (oldest : Int) (p : Payment) (hhigh : p.1 < oldest + N) :
    (∑ i : Fin N, if p.1 = hourIn oldest i then p.2 else 0) = if oldest ≤ p.1 then p.2 else 0 := by
  by_cases hlow : oldest ≤ p.1
  · rw [if_pos hlow, Finset.sum_eq_single (slotOf N p.1)]
    · rw [if_pos (hourIn_slotOf hlow hhigh).symm]
    · intro i _ hi
      rw [if_neg]
      intro heq
      apply hi
      rw [heq, slotOf_hourIn]
    · intro hmem
      exact absurd (Finset.mem_univ _) hmem
  · rw [if_neg hlow]
    refine Finset.sum_eq_zero fun i _ => if_neg fun heq => hlow ?_
    rw [heq]
    exact (hourIn_bounds oldest i).1

/-- Summing hour by hour over the window collects every payment inside it. -/
theorem sum_amountAt (pays : List Payment) (oldest : Int) (hhigh : ∀ p ∈ pays, p.1 < oldest + N) :
    (∑ i : Fin N, amountAt pays (hourIn oldest i)) = sumWhere pays (oldest ≤ ·) := by
  induction pays with
  | nil => simp [amountAt]
  | cons p pays ih =>
      have htail := ih fun q hq => hhigh q (List.mem_cons_of_mem _ hq)
      have hhead := sum_hourIn_eq oldest p (hhigh p List.mem_cons_self)
      simp only [amountAt, sumWhere_cons, Finset.sum_add_distrib] at htail ⊢
      rw [hhead, htail]

theorem Tracks.windowTotal_eq {M : Nat} {ring : Buckets N} {last : Int} {pays : List Payment}
    (ht : Tracks M ring last pays) :
    windowTotal ring (last - N + 1) =
      ∑ i : Fin N, min M (amountAt pays (hourIn (last - N + 1) i)) := by
  unfold windowTotal
  refine Finset.sum_congr rfl fun i _ => ?_
  obtain ⟨hlow, hhigh⟩ := hourIn_bounds (last - N + 1) i
  rw [← ht.counted _ (by omega) (by omega)]
  unfold bucketAt
  rw [slotOf_hourIn]
  by_cases hzero : (ring i).2 = 0
  · simp [hzero]
  · obtain ⟨hslot, hle⟩ := ht.placed i hzero
    by_cases hin : last - N + 1 ≤ (ring i).1
    · have hhour : (ring i).1 = hourIn (last - N + 1) i :=
        eq_of_slotOf_eq (hslot.trans (slotOf_hourIn _ i).symm) (by omega) (by omega)
      rw [if_pos hin, if_pos hhour]
    · rw [if_neg hin, if_neg]
      omega

/-- **An unsaturated window is exact**: its total is the total of the payments inside it. -/
theorem Tracks.windowTotal_exact {M : Nat} {ring : Buckets N} {last : Int} {pays : List Payment}
    (ht : Tracks M ring last pays) (hsat : windowTotal ring (last - N + 1) < M) :
    windowTotal ring (last - N + 1) = sumWhere pays (last - N + 1 ≤ ·) := by
  rw [← sum_amountAt (N := N) pays (last - N + 1)
    (fun p hp => by have := ht.recent p hp; omega)]
  rw [ht.windowTotal_eq] at hsat ⊢
  refine Finset.sum_congr rfl fun i hi => ?_
  have hterm := Finset.single_le_sum
    (f := fun i : Fin N => min M (amountAt pays (hourIn (last - N + 1) i)))
    (fun _ _ => Nat.zero_le _) hi
  have hlt : min M (amountAt pays (hourIn (last - N + 1) i)) < M := lt_of_le_of_lt hterm hsat
  omega

/-- Payments of the window that fit under the saturation bound are counted exactly. -/
theorem Tracks.windowTotal_of_le {M : Nat} {ring : Buckets N} {last : Int} {pays : List Payment}
    (ht : Tracks M ring last pays) (hle : sumWhere pays (last - N + 1 ≤ ·) ≤ M) :
    windowTotal ring (last - N + 1) = sumWhere pays (last - N + 1 ≤ ·) := by
  rw [← sum_amountAt (N := N) pays (last - N + 1)
    (fun p hp => by have := ht.recent p hp; omega)] at hle ⊢
  rw [ht.windowTotal_eq]
  refine Finset.sum_congr rfl fun i hi => ?_
  have hterm := Finset.single_le_sum (f := fun i : Fin N => amountAt pays (hourIn (last - N + 1) i))
    (fun _ _ => Nat.zero_le _) hi
  exact min_eq_right (hterm.trans hle)

/-- The bucket of the current hour is part of the window's total. -/
theorem bucketAt_le_windowTotal (ring : Buckets N) {hour oldest : Int} (h : oldest ≤ hour) :
    bucketAt ring hour ≤ windowTotal ring oldest := by
  have hterm := Finset.single_le_sum
    (f := fun i : Fin N => if oldest ≤ (ring i).1 then (ring i).2 else 0)
    (fun _ _ => Nat.zero_le _) (Finset.mem_univ (slotOf N hour))
  refine le_trans ?_ hterm
  unfold bucketAt
  by_cases hhour : (ring (slotOf N hour)).1 = hour
  · simp [hhour, h]
  · simp [hhour]

/-- A later start leaves less in the window. -/
theorem sumWhere_anti {pays : List Payment} {a b : Int} (h : a ≤ b) :
    sumWhere pays (b ≤ ·) ≤ sumWhere pays (a ≤ ·) :=
  sumWhere_mono fun _ _ hb => h.trans hb

end Ring

/-! ## Writing one bucket -/

/-- What a bucket adds to the total of a window. -/
def counted (oldest : Int) (bucket : Int × Nat) : Nat :=
  if oldest ≤ bucket.1 then bucket.2 else 0

/-- Writing one bucket changes its own part of the total and nothing else. -/
theorem windowTotal_update {N : Nat} (ring : Buckets N) (slot : Fin N) (bucket : Int × Nat)
    (oldest : Int) :
    windowTotal (Function.update ring slot bucket) oldest + counted oldest (ring slot) =
      windowTotal ring oldest + counted oldest bucket := by
  have hnew : counted oldest (Function.update ring slot bucket slot) +
        ∑ i ∈ univ.erase slot, counted oldest (Function.update ring slot bucket i) =
      windowTotal (Function.update ring slot bucket) oldest :=
    Finset.add_sum_erase univ
      (fun i => counted oldest (Function.update ring slot bucket i)) (Finset.mem_univ slot)
  have hold : counted oldest (ring slot) + ∑ i ∈ univ.erase slot, counted oldest (ring i) =
      windowTotal ring oldest :=
    Finset.add_sum_erase univ (fun i => counted oldest (ring i)) (Finset.mem_univ slot)
  have hrest : ∑ i ∈ univ.erase slot, counted oldest (Function.update ring slot bucket i) =
      ∑ i ∈ univ.erase slot, counted oldest (ring i) := by
    refine Finset.sum_congr rfl fun i hi => ?_
    rw [Function.update_of_ne (Finset.ne_of_mem_erase hi)]
  rw [Function.update_self, hrest] at hnew
  omega

/-! ## Seconds and hours -/

/-- The payments of a history by the hour they fall into. -/
def hours (period : Int) (pays : List Payment) : List Payment :=
  pays.map fun p => (p.1 / period, p.2)

theorem sumWhere_hours (period : Int) (pays : List Payment) (c : Int → Prop) [DecidablePred c] :
    sumWhere (hours period pays) c = sumWhere pays fun t => c (t / period) := by
  unfold sumWhere hours
  rw [List.filter_map, List.map_map]
  rfl

section Seconds

variable {period : Int}

/-- A time in the last `n` periods falls into the window of `n + 1` hours. -/
theorem hour_ge (hperiod : 0 < period) {n now t : Int} (h : now - n * period ≤ t) :
    now / period - n ≤ t / period := by
  calc now / period - n = (now + -n * period) / period := by
        rw [Int.add_mul_ediv_right _ _ hperiod.ne']
        ring
    _ ≤ t / period := Int.ediv_le_ediv hperiod (by rw [Int.neg_mul]; omega)

/-- A time in the window of `n + 1` hours falls into the last `n + 1` periods. -/
theorem second_gt (hperiod : 0 < period) {n now t : Int} (h : now / period - n ≤ t / period) :
    now - (n + 1) * period < t := by
  have hnow := Int.lt_ediv_add_one_mul_self now hperiod
  have ht := Int.ediv_mul_le t hperiod.ne'
  have hscaled := Int.mul_le_mul_of_nonneg_right h hperiod.le
  rw [Int.sub_mul] at hscaled
  rw [Int.add_mul] at hnow ⊢
  omega

/-- Whatever lies in the last `n` periods lies in the window of `n + 1` hours. -/
theorem sumWhere_seconds_le (hperiod : 0 < period) (pays : List Payment) (n now : Int) :
    sumWhere pays (fun t => now - n * period < t ∧ t ≤ now) ≤
      sumWhere (hours period pays) (now / period - n ≤ ·) := by
  rw [sumWhere_hours]
  exact sumWhere_mono fun _ _ h => hour_ge hperiod h.1.le

/-- What lies in the window of `n + 1` hours lies in the last `n + 1` periods. -/
theorem sumWhere_hours_le (hperiod : 0 < period) (pays : List Payment) {n now : Int}
    (hpast : ∀ p ∈ pays, p.1 ≤ now) :
    sumWhere (hours period pays) (now / period - n ≤ ·) ≤
      sumWhere pays (fun t => now - (n + 1) * period < t ∧ t ≤ now) := by
  rw [sumWhere_hours]
  exact sumWhere_mono fun p hp h => ⟨second_gt hperiod h, hpast p hp⟩

end Seconds

end Veto.Foundation
