import Veto.Watcher.Window

/-!
# The cadence

Four slots of each local day, on the hour.  The wall clock of the time zone is a parameter: what
has to be added to an instant to read it.
-/

namespace Veto.Watcher

/-! ## The wall clock -/

def DAY_MS : Int := 86400000

def HOUR_MS : Int := 3600000

/-- A time zone, by how far its wall clock is ahead at each instant, in milliseconds. -/
structure Zone where
  ahead : Int → Int

/-- The date as the number of its day, and the time. -/
structure Wall where
  day : Int
  hour : Int
  minute : Int
  second : Int

def wallInZone (zone : Zone) (instant : Int) : Wall :=
  let shown := instant + zone.ahead instant
  { day := shown / DAY_MS
    hour := shown % DAY_MS / HOUR_MS
    minute := shown % HOUR_MS / 60000
    second := shown % 60000 / 1000 }

/-- `Date.UTC`. -/
def dateUTC (wall : Wall) : Int :=
  wall.day * DAY_MS + wall.hour * HOUR_MS + wall.minute * 60000 + wall.second * 1000

def zoneOffsetMs (zone : Zone) (instant : Int) : Int :=
  dateUTC (wallInZone zone instant) - instant

def zonedLocalToDate (zone : Zone) (day hour minute : Int) : Int :=
  let utcGuess := dateUTC ⟨day, hour, minute, 0⟩
  let offset := zoneOffsetMs zone utcGuess
  let instant := utcGuess - offset
  let offset2 := zoneOffsetMs zone instant
  if offset2 ≠ offset then utcGuess - offset2 else instant

/-! ## Slots -/

def CADENCE_HOURS : List Int := [0, 6, 12, 18]

/-- The slot of an hour of the cadence. -/
def slotAt (zone : Zone) (day hour : Int) : Int := zonedLocalToDate zone day hour 0

def dueSlots (zone : Zone) (now : Int) : List Int :=
  (CADENCE_HOURS.map (slotAt zone (wallInZone zone now).day)).filter (· ≤ now)

/-- The local day of an instant. -/
def Zone.day (zone : Zone) (instant : Int) : Int := (wallInZone zone instant).day

section Slots

variable {zone : Zone} {now later slot : Int}

theorem dateUTC_wallInZone (zone : Zone) (instant : Int) :
    dateUTC (wallInZone zone instant) = (instant + zone.ahead instant) / 1000 * 1000 := by
  simp only [dateUTC, wallInZone, DAY_MS, HOUR_MS]
  omega

/-- The zone is never behind UTC, and never more than two hours ahead. -/
def Zone.European (zone : Zone) : Prop :=
  ∀ instant, 0 ≤ zone.ahead instant ∧ zone.ahead instant ≤ 2 * HOUR_MS

theorem zoneOffsetMs_bounds (hzone : zone.European) (instant : Int) :
    -1000 < zoneOffsetMs zone instant ∧ zoneOffsetMs zone instant ≤ 2 * HOUR_MS := by
  have hahead := hzone instant
  rw [zoneOffsetMs, dateUTC_wallInZone]
  simp only [HOUR_MS] at hahead ⊢
  omega

/-- A slot is at most two hours before the same reading of a UTC clock, and less than a second
after it. -/
theorem slotAt_bounds (hzone : zone.European) (day hour : Int) :
    day * DAY_MS + hour * HOUR_MS - 2 * HOUR_MS ≤ slotAt zone day hour ∧
      slotAt zone day hour < day * DAY_MS + hour * HOUR_MS + 1000 := by
  have hguess : dateUTC ⟨day, hour, 0, 0⟩ = day * DAY_MS + hour * HOUR_MS := by
    simp [dateUTC]
  have hfirst := zoneOffsetMs_bounds hzone (day * DAY_MS + hour * HOUR_MS)
  have hsecond := zoneOffsetMs_bounds hzone (day * DAY_MS + hour * HOUR_MS -
    zoneOffsetMs zone (day * DAY_MS + hour * HOUR_MS))
  rw [slotAt, zonedLocalToDate, hguess]
  split <;> omega

theorem mem_dueSlots_iff :
    slot ∈ dueSlots zone now ↔
      ∃ hour ∈ CADENCE_HOURS, slotAt zone (zone.day now) hour = slot ∧ slot ≤ now := by
  rw [dueSlots, List.mem_filter, List.mem_map, decide_eq_true_eq, Zone.day]
  constructor
  · rintro ⟨⟨hour, hhour, rfl⟩, hle⟩
    exact ⟨hour, hhour, rfl, hle⟩
  · rintro ⟨hour, hhour, rfl, hle⟩
    exact ⟨⟨hour, hhour, rfl⟩, hle⟩

theorem mem_CADENCE_HOURS {hour : Int} (h : hour ∈ CADENCE_HOURS) :
    ∃ k : Int, 0 ≤ k ∧ k < 4 ∧ hour = 6 * k := by
  simp only [CADENCE_HOURS, List.mem_cons, List.not_mem_nil, or_false] at h
  rcases h with rfl | rfl | rfl | rfl
  · exact ⟨0, by decide⟩
  · exact ⟨1, by decide⟩
  · exact ⟨2, by decide⟩
  · exact ⟨3, by decide⟩

/-- Slots of different readings are hours apart. -/
theorem slotAt_apart (hzone : zone.European) (day day' : Int) {hour hour' : Int}
    (hhour : hour ∈ CADENCE_HOURS) (hhour' : hour' ∈ CADENCE_HOURS)
    (hne : day ≠ day' ∨ hour ≠ hour') :
    3 * HOUR_MS < slotAt zone day hour - slotAt zone day' hour' ∨
      3 * HOUR_MS < slotAt zone day' hour' - slotAt zone day hour := by
  obtain ⟨k, hk, hk', rfl⟩ := mem_CADENCE_HOURS hhour
  obtain ⟨m, hm, hm', rfl⟩ := mem_CADENCE_HOURS hhour'
  have hslot := slotAt_bounds hzone day (6 * k)
  have hslot' := slotAt_bounds hzone day' (6 * m)
  simp only [DAY_MS, HOUR_MS] at hslot hslot' ⊢
  omega

/-- **A slot stays due for the rest of its local day, and no longer.** -/
theorem due_later_iff (hzone : zone.European) (hdue : slot ∈ dueSlots zone now) (hle : now ≤ later) :
    slot ∈ dueSlots zone later ↔ zone.day later = zone.day now := by
  rw [mem_dueSlots_iff] at hdue ⊢
  obtain ⟨hour, hhour, hslot, hpast⟩ := hdue
  constructor
  · rintro ⟨hour', hhour', hslot', -⟩
    by_contra hne
    have hapart := slotAt_apart hzone _ _ hhour' hhour (.inl hne)
    rw [hslot, hslot'] at hapart
    simp only [HOUR_MS] at hapart
    omega
  · intro hsame
    exact ⟨hour, hhour, by rw [hsame, hslot], hpast.trans hle⟩

/-- Each slot of a day once. -/
theorem dueSlots_nodup (hzone : zone.European) (now : Int) : (dueSlots zone now).Nodup := by
  apply List.Nodup.filter
  refine List.Nodup.map_on ?_ (by decide)
  intro hour hhour hour' hhour' heq
  by_contra hne
  have hapart := slotAt_apart hzone (zone.day now) (zone.day now) hhour hhour' (.inr hne)
  rw [Zone.day, heq] at hapart
  simp only [HOUR_MS] at hapart
  omega

end Slots

end Veto.Watcher
