import Veto.RollingWindow

/-!
# What one recording adds to the window

`commit` and `record_release` on any array of buckets, reachable or not, and any clock
reading: what they add to `spent`.  From the zero array and at times that do not go back,
`spent` is the sum of what was recorded in the hours of the window.
-/

namespace Veto

open Foundation

/-- The oldest hour of the window, as the ring counts it. -/
def earliestHour (now : Int64) : Int := (hourOf now).toInt - BUCKET_COUNT + 1

/-- The amount of the window as a number of any size. -/
def windowSum (buckets : TradeBuckets) (now : Int64) : Nat :=
  windowTotal buckets.ring (earliestHour now)

/-- `record_release` keeps the bucket of its slot and adds more than fits in it. -/
def Saturates (buckets : TradeBuckets) (amount : UInt64) (now : Int64) : Prop :=
  let bucket := buckets.get (bucketSlot (hourOf now))
  ¬ (bucket.amount = 0 ∨ bucket.hour < hourOf now - 24) ∧
    2 ^ 64 ≤ bucket.amount.toNat + amount.toNat

instance (buckets : TradeBuckets) (amount : UInt64) (now : Int64) :
    Decidable (Saturates buckets amount now) :=
  inferInstanceAs (Decidable (_ ∧ _))

section Steps

variable {buckets buckets' : TradeBuckets} {amount : UInt64} {now : Int64}

/-- `spent` is the sum of the window where it is a word, and none where it is not. -/
theorem spent_eq (buckets : TradeBuckets) (now : Int64) :
    spent buckets now =
      if windowSum buckets now < 2 ^ 64 then some (UInt64.ofNat (windowSum buckets now))
      else none := by
  by_cases hfits : windowSum buckets now < 2 ^ 64
  · rw [if_pos hfits, spent_eq_some]
    exact UInt64.toNat_ofNat_of_lt' hfits
  · rw [if_neg hfits, Option.eq_none_iff_forall_ne_some]
    intro total htotal
    have hlt := total.toNat_lt
    rw [spent_eq_some.mp htotal] at hlt
    exact hfits hlt

/-- What raises the sum by `amount` raises `spent` by `amount`, as long as it fits. -/
theorem spent_raised (h : windowSum buckets' now = windowSum buckets now + amount.toNat) :
    spent buckets' now = (spent buckets now).bind fun before => checkedAdd before amount := by
  rw [spent_eq, spent_eq, h]
  by_cases hbefore : windowSum buckets now < 2 ^ 64
  · have hword : (UInt64.ofNat (windowSum buckets now)).toNat = windowSum buckets now :=
      UInt64.toNat_ofNat_of_lt' hbefore
    rw [if_pos hbefore, Option.bind_some, checkedAdd, hword]
    by_cases hafter : windowSum buckets now + amount.toNat < 2 ^ 64
    · rw [if_pos hafter, if_pos hafter, Option.some.injEq, ← UInt64.toNat_inj,
        UInt64.toNat_ofNat_of_lt' hafter, UInt64.toNat_add, hword, Nat.mod_eq_of_lt hafter]
    · rw [if_neg hafter, if_neg hafter]
  · rw [if_neg hbefore, if_neg (by omega)]
    rfl

/-- The current hour is inside the window. -/
theorem counted_now (amount : Nat) (now : Int64) :
    counted (earliestHour now) ((hourOf now).toInt, amount) = amount := by
  have hcount : ((BUCKET_COUNT : Nat) : Int) = 25 := rfl
  unfold counted earliestHour
  rw [hcount]
  exact if_pos (by omega)

/-- A bucket of the window, or of a later hour, is counted. -/
theorem counted_live {bucket : TradeBucket} (h : ¬ bucket.hour < hourOf now - 24) :
    counted (earliestHour now) (bucket.hour.toInt, bucket.amount.toNat) = bucket.amount.toNat := by
  rw [Int64.lt_iff_toInt_lt, toInt_oldest] at h
  unfold counted earliestHour
  exact if_pos (Int.not_lt.mp h)

/-- A bucket that is empty, or has left the window, is not. -/
theorem counted_free {bucket : TradeBucket}
    (h : bucket.amount = 0 ∨ bucket.hour < hourOf now - 24) :
    counted (earliestHour now) (bucket.hour.toInt, bucket.amount.toNat) = 0 := by
  unfold counted
  rcases h with hzero | hpast
  · rw [hzero]
    exact ite_self 0
  · rw [Int64.lt_iff_toInt_lt, toInt_oldest] at hpast
    exact if_neg (Int.not_le.mpr hpast)

/-- **A successful `commit` adds its amount to the window.** -/
theorem windowSum_commit (h : commit buckets amount now = (some (), buckets')) :
    windowSum buckets' now = windowSum buckets now + amount.toNat := by
  unfold commit at h
  dsimp only at h
  have hset : ∀ total : UInt64,
      windowSum (buckets.set (bucketSlot (hourOf now)) ⟨hourOf now, total⟩) now +
          counted (earliestHour now) (buckets[bucketSlot (hourOf now)].hour.toInt,
            buckets[bucketSlot (hourOf now)].amount.toNat) =
        windowSum buckets now + total.toNat := by
    intro total
    have htotal := windowTotal_set buckets (bucketSlot (hourOf now)) ⟨hourOf now, total⟩
      (earliestHour now)
    rw [counted_now] at htotal
    exact htotal
  generalize hbucket : buckets[bucketSlot (hourOf now)] = bucket at h hset
  by_cases hhour : bucket.hour = hourOf now
  · -- the bucket of this very hour grows
    rw [if_neg (not_not.mpr hhour)] at h
    cases hadd : checkedAdd bucket.amount amount with
    | none =>
        rw [hadd] at h
        cases h
    | some total =>
        rw [hadd] at h
        cases h
        have hafter := hset total
        rw [hhour, counted_now, checkedAdd_eq_some.mp hadd] at hafter
        omega
  · -- a bucket that is free is taken over
    rw [if_pos hhour] at h
    by_cases hlive : bucket.amount ≠ 0 ∧ hourOf now - 24 ≤ bucket.hour
    · rw [if_pos hlive] at h
      cases h
    · rw [if_neg hlive] at h
      have hfree : bucket.amount = 0 ∨ bucket.hour < hourOf now - 24 := by
        rw [not_and_or, not_not, Int64.not_le] at hlive
        exact hlive
      have hadd : checkedAdd 0 amount = some amount := checkedAdd_eq_some.mpr (by simp)
      rw [hadd] at h
      cases h
      have hafter := hset amount
      rw [counted_free hfree] at hafter
      omega

/-- **A failed `commit` leaves the array as it was.** -/
theorem commit_failed (h : commit buckets amount now = (none, buckets')) : buckets' = buckets := by
  unfold commit at h
  dsimp only at h
  have hadd : checkedAdd 0 amount = some amount := checkedAdd_eq_some.mpr (by simp)
  rw [hadd] at h
  split at h
  · split at h
    · cases h
      rfl
    · cases h
  · split at h
    · cases h
    · cases h
      rfl

/-- **A release adds its amount to the window** unless its bucket saturates. -/
theorem windowSum_recordRelease (h : ¬ Saturates buckets amount now) :
    windowSum (recordRelease buckets amount now) now = windowSum buckets now + amount.toNat := by
  unfold Saturates at h
  have hget : buckets.get (bucketSlot (hourOf now)) = buckets[bucketSlot (hourOf now)] := rfl
  dsimp only at h
  rw [hget, not_and, not_le] at h
  unfold recordRelease windowSum
  dsimp only
  have hset := fun bucket => windowTotal_set buckets (bucketSlot (hourOf now)) bucket
    (earliestHour now)
  generalize hbucket : buckets[bucketSlot (hourOf now)] = bucket at h hset
  by_cases hfree : bucket.amount = 0 ∨ bucket.hour < hourOf now - 24
  · rw [if_pos hfree]
    dsimp only
    have hadd : saturatingAdd 0 amount = amount := by
      rw [← UInt64.toNat_inj, toNat_saturatingAdd]
      have hlt := amount.toNat_lt
      show min (2 ^ 64 - 1) (0 + amount.toNat) = amount.toNat
      omega
    have hafter := hset ⟨hourOf now, amount⟩
    rw [counted_free hfree, counted_now] at hafter
    rw [hadd]
    omega
  · rw [if_neg hfree]
    have hsum : (saturatingAdd bucket.amount amount).toNat =
        bucket.amount.toNat + amount.toNat := by
      have hroom := h hfree
      rw [toNat_saturatingAdd]
      omega
    rw [not_or] at hfree
    have hafter := hset { bucket with amount := saturatingAdd bucket.amount amount }
    have hkept : counted (earliestHour now)
        (bucket.hour.toInt, (saturatingAdd bucket.amount amount).toNat) =
        (saturatingAdd bucket.amount amount).toNat :=
      @counted_live _ ⟨bucket.hour, saturatingAdd bucket.amount amount⟩ hfree.2
    rw [counted_live hfree.2, hkept, hsum] at hafter
    omega

end Steps

/-! ## Sequences of recordings -/

/-- A call that records an amount, at a clock reading. -/
inductive Recording
  | commit (amount : UInt64) (now : Int64)
  | release (amount : UInt64) (now : Int64)

namespace Recording

def now : Recording → Int64
  | commit _ now => now
  | release _ now => now

/-- The payment by the second. -/
def payment : Recording → Payment
  | commit amount now => (now.toInt, amount.toNat)
  | release amount now => (now.toInt, amount.toNat)

/-- What the call leaves; a `commit` that fails records nothing. -/
def exec (buckets : TradeBuckets) : Recording → Option TradeBuckets
  | commit amount now =>
      match Veto.commit buckets amount now with
      | (some (), buckets') => some buckets'
      | (none, _) => none
  | release amount now => some (recordRelease buckets amount now)

end Recording

def recordAll (buckets : TradeBuckets) (recordings : List Recording) : Option TradeBuckets :=
  recordings.foldlM Recording.exec buckets

/-- The times do not go back. -/
def InOrder (recordings : List Recording) : Prop :=
  recordings.Pairwise fun earlier later => earlier.now ≤ later.now

instance (recordings : List Recording) : Decidable (InOrder recordings) :=
  inferInstanceAs (Decidable (List.Pairwise _ _))

/-- The sum of what was recorded in the hours from 24 before the current one on. -/
def recordedInWindow (recordings : List Recording) (now : Int64) : Nat :=
  sumWhere (recordings.map Recording.payment) fun t =>
    now.toInt / BUCKET_SECS - 24 ≤ t / BUCKET_SECS

/-- The sum of what was recorded in the last so many hours. -/
def recordedInLast (hours : Int) (recordings : List Recording) (now : Int64) : Nat :=
  sumWhere (recordings.map Recording.payment) fun t =>
    now.toInt - hours * BUCKET_SECS < t ∧ t ≤ now.toInt

section Sequences

variable {buckets buckets' : TradeBuckets} {recordings : List Recording} {now : Int64}
  {pays : List Payment}

/-- What is recorded is a payment in the hour of its call. -/
theorem Recording.exec_ring {recording : Recording}
    (h : recording.exec buckets = some buckets') :
    buckets'.ring = recordIn bucketMax buckets.ring (recording.now.toInt / BUCKET_SECS)
      recording.payment.2 := by
  cases recording with
  | commit amount now =>
      have hcommit : Veto.commit buckets amount now = (some (), buckets') := by
        rw [Recording.exec] at h
        split at h
        · rename_i hcommit
          cases h
          exact hcommit
        · cases h
      rw [← toInt_hourOf]
      exact ring_commit hcommit
  | release amount now =>
      cases h
      rw [← toInt_hourOf]
      exact ring_recordRelease buckets amount now

/-- A step keeps the buckets in step with what was recorded. -/
theorem Recording.exec_tracks {recording : Recording}
    (ht : Tracks bucketMax buckets.ring (recording.now.toInt / BUCKET_SECS)
      (hours BUCKET_SECS pays))
    (h : recording.exec buckets = some buckets') :
    Tracks bucketMax buckets'.ring (recording.now.toInt / BUCKET_SECS)
      (hours BUCKET_SECS (recording.payment :: pays)) := by
  have hpayment : recording.payment.1 = recording.now.toInt := by
    cases recording with
    | commit amount now => rfl
    | release amount now => rfl
  rw [Recording.exec_ring h]
  have hrecorded := ht.record (by decide) recording.payment.2
  unfold hours at hrecorded ⊢
  rw [List.map_cons, hpayment]
  exact hrecorded

/-- Along a sequence in order, by induction on it: the buckets track what was recorded. -/
theorem recordAll_tracks (hrecord : recordAll buckets recordings = some buckets')
    (horder : InOrder recordings) (hnow : ∀ r ∈ recordings, r.now ≤ now)
    (ht : ∀ last : Int, (∀ p ∈ pays, p.1 ≤ last) →
      Tracks bucketMax buckets.ring (last / BUCKET_SECS) (hours BUCKET_SECS pays))
    (hpays : ∀ p ∈ pays, p.1 ≤ now.toInt ∧ ∀ r ∈ recordings, p.1 ≤ r.now.toInt) :
    Tracks bucketMax buckets'.ring (now.toInt / BUCKET_SECS)
      (hours BUCKET_SECS ((recordings.map Recording.payment).reverse ++ pays)) := by
  induction recordings generalizing buckets pays with
  | nil =>
      cases hrecord
      exact ht now.toInt fun p hp => (hpays p hp).1
  | cons recording recordings ih =>
      unfold recordAll at hrecord
      rw [List.foldlM_cons] at hrecord
      obtain ⟨next, hnext, hrest⟩ := Option.bind_eq_some_iff.mp hrecord
      obtain ⟨hfirst, horder⟩ := List.pairwise_cons.mp horder
      have hpayment : recording.payment.1 = recording.now.toInt := by
        cases recording with
        | commit amount now => rfl
        | release amount now => rfl
      have hbefore := ht recording.now.toInt fun p hp =>
        (hpays p hp).2 recording List.mem_cons_self
      have hafter := Recording.exec_tracks hbefore hnext
      rw [List.map_cons, List.reverse_cons, List.append_assoc, List.singleton_append]
      refine ih hrest horder (fun r hr => hnow r (List.mem_cons_of_mem _ hr)) ?_ ?_
      · intro last hlast
        have hle : recording.now.toInt ≤ last := by
          have hhead := hlast _ List.mem_cons_self
          rw [hpayment] at hhead
          exact hhead
        exact hafter.advance (Int.ediv_le_ediv (by decide) hle)
      · intro p hp
        rcases List.mem_cons.mp hp with rfl | hp
        · rw [hpayment]
          exact ⟨Int64.le_iff_toInt_le.mp (hnow recording List.mem_cons_self),
            fun r hr => Int64.le_iff_toInt_le.mp (hfirst r hr)⟩
        · exact ⟨(hpays p hp).1, fun r hr => (hpays p hp).2 r (List.mem_cons_of_mem _ hr)⟩

theorem sumWhere_reverse (pays : List Payment) (c : Int → Prop) [DecidablePred c] :
    sumWhere pays.reverse c = sumWhere pays c := by
  unfold sumWhere
  rw [List.filter_reverse, List.map_reverse, List.sum_reverse]

/-- **From the zero array the window is the sum of what was recorded in it**, as long as that
is a word. -/
theorem spent_recorded (hrecord : recordAll .default recordings = some buckets)
    (horder : InOrder recordings) (hnow : ∀ r ∈ recordings, r.now ≤ now)
    (hfits : recordedInWindow recordings now < 2 ^ 64) :
    ∃ total, spent buckets now = some total ∧ total.toNat = recordedInWindow recordings now := by
  have hempty : ∀ i, ((TradeBuckets.default).ring i).2 = 0 := by
    intro i
    show ((TradeBuckets.default)[i]).amount.toNat = 0
    simp [TradeBuckets.default]
  have hstart : ∀ last : Int, (∀ p ∈ ([] : List Payment), p.1 ≤ last) →
      Tracks bucketMax (TradeBuckets.default).ring (last / BUCKET_SECS) (hours BUCKET_SECS []) :=
    fun last _ => Tracks.empty hempty _
  have htracks := recordAll_tracks hrecord horder hnow hstart (by simp)
  rw [List.append_nil] at htracks
  have holdest : now.toInt / BUCKET_SECS - (BUCKET_COUNT : Int) + 1 =
      now.toInt / BUCKET_SECS - 24 := by
    show _ - (25 : Int) + 1 = _
    omega
  have hsum : sumWhere (hours BUCKET_SECS (recordings.map Recording.payment).reverse)
      (now.toInt / BUCKET_SECS - (BUCKET_COUNT : Int) + 1 ≤ ·) =
      recordedInWindow recordings now := by
    rw [sumWhere_hours, sumWhere_reverse, holdest]
    rfl
  have hword : recordedInWindow recordings now ≤ bucketMax := by
    unfold bucketMax
    omega
  have hexact := htracks.windowTotal_of_le (by rw [hsum]; exact hword)
  rw [hsum] at hexact
  refine ⟨UInt64.ofNat (recordedInWindow recordings now), ?_, UInt64.toNat_ofNat_of_lt' hfits⟩
  rw [spent_eq_some, toInt_hourOf, hexact]
  exact UInt64.toNat_ofNat_of_lt' hfits

/-- The window lies between the last 24 hours and the last 25. -/
theorem recordedInWindow_bounds (hnow : ∀ r ∈ recordings, r.now ≤ now) :
    recordedInLast 24 recordings now ≤ recordedInWindow recordings now ∧
      recordedInWindow recordings now ≤ recordedInLast 25 recordings now := by
  have hpast : ∀ p ∈ recordings.map Recording.payment, p.1 ≤ now.toInt := by
    intro p hp
    obtain ⟨r, hr, rfl⟩ := List.mem_map.mp hp
    have hle := Int64.le_iff_toInt_le.mp (hnow r hr)
    cases r with
    | commit amount now => exact hle
    | release amount now => exact hle
  have hlow := sumWhere_seconds_le (show 0 < BUCKET_SECS by decide)
    (recordings.map Recording.payment) 24 now.toInt
  have hhigh := sumWhere_hours_le (n := 24) (show 0 < BUCKET_SECS by decide) _ hpast
  rw [sumWhere_hours] at hlow hhigh
  exact ⟨hlow, hhigh⟩

end Sequences

/-! ## The window is exact -/

/-- **Rolling window.**  On every array and at every clock reading a successful `commit`, and a
release whose bucket does not saturate, raise `spent` by the amount (to none where the sum is
no word), and a failed `commit` changes nothing.  Recordings from the zero array at times in
order are counted from the first hour of the window on. -/
theorem rolling_window_exact :
    (∀ (buckets : TradeBuckets) (amount : UInt64) (now : Int64),
      (∀ buckets', commit buckets amount now = (some (), buckets') →
        spent buckets' now = (spent buckets now).bind fun before => checkedAdd before amount) ∧
      (∀ buckets', commit buckets amount now = (none, buckets') → buckets' = buckets) ∧
      (¬ Saturates buckets amount now → spent (recordRelease buckets amount now) now =
        (spent buckets now).bind fun before => checkedAdd before amount)) ∧
    ∀ (recordings : List Recording) (buckets : TradeBuckets) (now : Int64),
      recordAll .default recordings = some buckets → InOrder recordings →
      (∀ r ∈ recordings, r.now ≤ now) → recordedInWindow recordings now < 2 ^ 64 →
      (∃ total, spent buckets now = some total ∧
        total.toNat = recordedInWindow recordings now) ∧
      recordedInLast 24 recordings now ≤ recordedInWindow recordings now ∧
      recordedInWindow recordings now ≤ recordedInLast 25 recordings now := by
  constructor
  · intro buckets amount now
    refine ⟨?_, ?_, ?_⟩
    · intro buckets' hcommit
      exact spent_raised (windowSum_commit hcommit)
    · intro buckets' hcommit
      exact commit_failed hcommit
    · intro hroom
      exact spent_raised (windowSum_recordRelease hroom)
  · intro recordings buckets now hrecord horder hnow hfits
    exact ⟨spent_recorded hrecord horder hnow hfits, recordedInWindow_bounds hnow⟩

/-- Forty were recorded in the first hour of the window and ten in its last; the five of the
hour before have left it. -/
theorem rolling_window_exact_sample :
    ∃ buckets, recordAll .default [.release 5 0, .commit 40 3700, .release 10 90000] = some buckets ∧
      ∃ total, spent buckets 90100 = some total ∧ total.toNat = 50 := by
  obtain ⟨buckets, hbuckets⟩ := Option.isSome_iff_exists.mp
    (show (recordAll .default [.release 5 0, .commit 40 3700, .release 10 90000]).isSome by
      decide +kernel)
  exact ⟨buckets, hbuckets, (rolling_window_exact.2 _ buckets 90100 hbuckets (by decide)
    (by decide) (by decide)).1⟩

/-- The bucket of hour 1 holds the largest word, the others nothing. -/
def nearlyFull : TradeBuckets :=
  TradeBuckets.default.set 1 ⟨1, UInt64.ofNat (2 ^ 64 - 1)⟩

/-- The `commit` of one succeeds, no bucket saturates, and `spent` is none. -/
theorem rolling_window_past_words :
    (commit nearlyFull 1 0).1 = some () ∧ ¬ Saturates nearlyFull 1 0 ∧
      spent nearlyFull 0 = some (UInt64.ofNat (2 ^ 64 - 1)) ∧
      spent (commit nearlyFull 1 0).2 0 = none ∧ spent (recordRelease nearlyFull 1 0) 0 = none := by
  decide +kernel

end Veto
