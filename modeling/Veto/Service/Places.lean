import Veto.Service.Stored

/-!
# The places of records

Each record stands at the place of an instruction of its transaction, and no two instructions
stand at one place, so no two records have one key.
-/

namespace Veto.Service

open Foundation

variable {bs58 : Text → Option Bytes} {raw : RpcTransaction} {keys : List String}
  {records : List DecodedRecord} {signature : String} {slot : Int} {timestamp : Option Int}

/-- The two numbers of an instruction in its transaction. -/
def LocatedInstruction.place (ix : LocatedInstruction) : Nat × Option Nat :=
  (ix.instructionIndex, ix.innerInstructionIndex)

theorem locate_place {ix : RpcInstruction} {index : Nat} {inner : Option Nat}
    {located : LocatedInstruction} (h : locate bs58 keys ix index inner = .ok located) :
    located.place = (index, inner) := by
  obtain ⟨programId, -, h⟩ := bind_ok_iff.mp h
  obtain ⟨accounts, -, h⟩ := bind_ok_iff.mp h
  cases h
  rfl

/-- The inner instructions of one group are numbered from the first on. -/
theorem inner_places {instructions : List RpcInstruction} {index start : Nat}
    {located : List LocatedInstruction}
    (h : (instructions.zipIdx start).mapM (fun (inner, innerIndex) =>
      locate bs58 keys inner index (some innerIndex)) = .ok located) :
    located.map LocatedInstruction.place =
      (List.range' start instructions.length).map fun inner => (index, some inner) := by
  induction instructions generalizing start located with
  | nil =>
      cases h
      rfl
  | cons inner instructions ih =>
      rw [List.zipIdx_cons, List.mapM_cons] at h
      obtain ⟨first, hfirst, h⟩ := bind_ok_iff.mp h
      obtain ⟨rest, hrest, h⟩ := bind_ok_iff.mp h
      cases h
      rw [List.map_cons, locate_place hfirst, ih hrest, List.length_cons, List.range'_succ,
        List.map_cons]

/-- The part of one instruction: itself and the inner ones. -/
def partOf (bs58 : Text → Option Bytes) (tx : RpcTransaction) (ix : RpcInstruction) (index : Nat) :
    Except String (List LocatedInstruction) := do
  let top ← locate bs58 tx.keys ix index none
  let groups ← (tx.innerInstructions.filter fun group => group.index = index).mapM fun group =>
    group.instructions.zipIdx.mapM fun (inner, innerIndex) =>
      locate bs58 tx.keys inner index (some innerIndex)
  return top :: groups.flatten

/-- At most one group has the inner instructions of an instruction. -/
theorem filter_groups (h : (raw.innerInstructions.map InnerInstructions.index).Nodup)
    (index : Nat) :
    (raw.innerInstructions.filter fun group => group.index = index).length ≤ 1 := by
  have hcount := List.nodup_iff_count_le_one.mp h index
  rw [List.count, List.countP_map, List.countP_eq_length_filter] at hcount
  exact hcount

theorem partOf_places (hgrouped : (raw.innerInstructions.map InnerInstructions.index).Nodup)
    {ix : RpcInstruction} {index : Nat} {part : List LocatedInstruction}
    (h : partOf bs58 raw ix index = .ok part) :
    (part.map LocatedInstruction.place).Nodup ∧ ∀ located ∈ part, located.place.1 = index := by
  obtain ⟨top, htop, h⟩ := bind_ok_iff.mp h
  obtain ⟨groups, hgroups, h⟩ := bind_ok_iff.mp h
  cases h
  have htopPlace := locate_place htop
  have hone := filter_groups hgrouped index
  -- the inner ones, of at most one group
  obtain ⟨count, hinner⟩ : ∃ count, groups.flatten.map LocatedInstruction.place =
      (List.range' 0 count).map fun inner => (index, some inner) := by
    cases hfilter : raw.innerInstructions.filter fun group => group.index = index with
    | nil =>
        rw [hfilter] at hgroups
        cases hgroups
        exact ⟨0, rfl⟩
    | cons group rest =>
        obtain rfl : rest = [] := by
          rw [hfilter, List.length_cons] at hone
          exact List.eq_nil_of_length_eq_zero (by omega)
        rw [hfilter, List.mapM_cons] at hgroups
        obtain ⟨inner, hinner, hgroups⟩ := bind_ok_iff.mp hgroups
        cases hgroups
        change ∃ count, [inner].flatten.map LocatedInstruction.place = _
        rw [List.flatten_singleton]
        exact ⟨_, inner_places hinner⟩
  refine ⟨?_, ?_⟩
  · rw [List.map_cons, hinner, htopPlace, List.nodup_cons]
    refine ⟨by simp, ?_⟩
    refine List.Nodup.map ?_ List.nodup_range'
    intro a b hab
    simpa using hab
  · intro located hlocated
    rcases List.mem_cons.mp hlocated with rfl | hlocated
    · rw [htopPlace]
    · have hmem := List.mem_map_of_mem (f := LocatedInstruction.place) hlocated
      rw [hinner] at hmem
      obtain ⟨inner, -, hplace⟩ := List.mem_map.mp hmem
      rw [← hplace]

/-- No two instructions of a transaction stand at one place. -/
theorem transactionInstructions_places
    (hgrouped : (raw.innerInstructions.map InnerInstructions.index).Nodup)
    {located : List LocatedInstruction} (h : transactionInstructions bs58 raw = .ok located) :
    (located.map LocatedInstruction.place).Nodup := by
  have hparts : ∀ (instructions : List RpcInstruction) (start : Nat)
      (parts : List (List LocatedInstruction)),
      (instructions.zipIdx start).mapM (fun (ix, index) => partOf bs58 raw ix index) = .ok parts →
      (parts.flatten.map LocatedInstruction.place).Nodup ∧
        ∀ located ∈ parts.flatten, start ≤ located.place.1 := by
    intro instructions
    induction instructions with
    | nil =>
        rintro start _ h
        cases h
        exact ⟨List.nodup_nil, fun located hlocated => (nomatch hlocated)⟩
    | cons ix instructions ih =>
        intro start parts h
        rw [List.zipIdx_cons, List.mapM_cons] at h
        obtain ⟨first, hfirst, h⟩ := bind_ok_iff.mp h
        obtain ⟨rest, hrest, h⟩ := bind_ok_iff.mp h
        cases h
        obtain ⟨hnodup, hindex⟩ := partOf_places hgrouped hfirst
        obtain ⟨hnodupRest, hlater⟩ := ih (start + 1) rest hrest
        rw [List.flatten_cons]
        refine ⟨?_, ?_⟩
        · rw [List.map_append, List.nodup_append]
          refine ⟨hnodup, hnodupRest, ?_⟩
          rintro _ hmem _ hmemRest rfl
          obtain ⟨a, ha, hplace⟩ := List.mem_map.mp hmem
          obtain ⟨b, hb, hsame⟩ := List.mem_map.mp hmemRest
          have hfirstIndex := hindex a ha
          have hrestIndex := hlater b hb
          rw [hsame, ← hplace, hfirstIndex] at hrestIndex
          omega
        · intro located hlocated
          rcases List.mem_append.mp hlocated with hlocated | hlocated
          · rw [hindex located hlocated]
          · exact (Nat.le_succ start).trans (hlater located hlocated)
  obtain ⟨parts, hall, h⟩ := bind_ok_iff.mp h
  cases h
  exact (hparts raw.instructions 0 parts hall).1

/-! ## Records -/

section Records

variable {location : Location} {layout : Layout} {ix : LocatedInstruction}
  {remaining later : List Indexer.Decision} {record : DecodedRecord} {owner : OwnerRecord}
  {account : String → String} {data : Bytes}
  {state state' : List DecodedRecord × List Indexer.Decision}

theorem decodeOpenMandate_location (h : decodeOpenMandate owner account data = .ok record) :
    record.location = owner.toLocation := by
  obtain ⟨length, -, h⟩ := bind_ok_iff.mp h
  obtain ⟨-, -, h⟩ := bind_ok_iff.mp h
  obtain ⟨mandateId, -, h⟩ := bind_ok_iff.mp h
  obtain ⟨cap, -, h⟩ := bind_ok_iff.mp h
  obtain ⟨perTxMax, -, h⟩ := bind_ok_iff.mp h
  obtain ⟨expiresAt, -, h⟩ := bind_ok_iff.mp h
  obtain ⟨purpose, -, h⟩ := bind_ok_iff.mp h
  cases h
  rfl

theorem decodeGrantOverride_location (h : decodeGrantOverride owner account data = .ok record) :
    record.location = owner.toLocation := by
  obtain ⟨-, -, h⟩ := bind_ok_iff.mp h
  obtain ⟨amount, -, h⟩ := bind_ok_iff.mp h
  obtain ⟨nonce, -, h⟩ := bind_ok_iff.mp h
  cases h
  rfl

theorem decodeCharge_location
    (h : decodeCharge account data location remaining = .ok (record, later)) :
    record.location = location := by
  obtain ⟨-, -, h⟩ := bind_ok_iff.mp h
  obtain ⟨amount, -, h⟩ := bind_ok_iff.mp h
  obtain ⟨nonce, -, h⟩ := bind_ok_iff.mp h
  dsimp only at h
  split at h
  · cases h
  · obtain ⟨decision, -, h⟩ := bind_ok_iff.mp h
    cases h
    rfl

theorem decodeInstruction_location
    (h : decodeInstruction location layout ix remaining = .ok (record, later)) :
    record.location = location := by
  obtain ⟨-, -, h⟩ := bind_ok_iff.mp h
  cases hname : layout.name with
  | openMandate =>
      rw [hname] at h
      obtain ⟨opened, hopened, h⟩ := bind_ok_iff.mp h
      cases h
      exact decodeOpenMandate_location hopened
  | grantOverride =>
      rw [hname] at h
      obtain ⟨granted, hgranted, h⟩ := bind_ok_iff.mp h
      cases h
      exact decodeGrantOverride_location hgranted
  | revokeMandate =>
      rw [hname] at h
      obtain ⟨revoked, hrevoked, h⟩ := bind_ok_iff.mp h
      cases h
      obtain ⟨-, -, hrevoked⟩ := bind_ok_iff.mp hrevoked
      cases hrevoked
      rfl
  | closeMandate =>
      rw [hname] at h
      obtain ⟨closed, hclosed, h⟩ := bind_ok_iff.mp h
      cases h
      obtain ⟨-, -, hclosed⟩ := bind_ok_iff.mp hclosed
      cases hclosed
      rfl
  | charge =>
      rw [hname] at h
      exact decodeCharge_location h

/-- A step of the loop adds a record of its instruction, or none. -/
theorem decodeNext_adds (h : decodeNext signature slot timestamp state ix = .ok state') :
    state'.1 = state.1 ∨ ∃ record, state'.1 = state.1 ++ [record] ∧ record.location = {
      signature, slot, timestamp, instructionIndex := ix.instructionIndex
      innerInstructionIndex := ix.innerInstructionIndex } := by
  unfold decodeNext at h
  cases hlayout : layoutOf ix.data with
  | none =>
      rw [hlayout] at h
      cases h
      exact .inl rfl
  | some layout =>
      rw [hlayout] at h
      dsimp only at h
      split at h
      · rename_i record later hdecoded
        cases h
        exact .inr ⟨record, rfl, decodeInstruction_location hdecoded⟩
      · cases h

/-- The records stand at the places of some of the instructions, in order. -/
theorem decodeAll_places {instructions : List LocatedInstruction}
    (h : instructions.foldlM (decodeNext signature slot timestamp) state = .ok state') :
    ∃ added, state'.1 = state.1 ++ added ∧
      (added.map DecodedRecord.location).Sublist (instructions.map fun ix => {
        signature, slot, timestamp, instructionIndex := ix.instructionIndex
        innerInstructionIndex := ix.innerInstructionIndex }) := by
  induction instructions generalizing state with
  | nil =>
      cases h
      exact ⟨[], (List.append_nil _).symm, .slnil⟩
  | cons ix instructions ih =>
      rw [List.foldlM_cons] at h
      obtain ⟨next, hnext, hrest⟩ := bind_ok_iff.mp h
      obtain ⟨added, hadded, hplaces⟩ := ih hrest
      rcases decodeNext_adds hnext with hsame | ⟨record, hrecord, hlocation⟩
      · exact ⟨added, by rw [hadded, hsame], hplaces.cons _⟩
      · refine ⟨record :: added, by rw [hadded, hrecord, List.append_assoc]; rfl, ?_⟩
        rw [List.map_cons, List.map_cons, hlocation]
        exact hplaces.cons_cons _

/-- Where an instruction of the transaction stands. -/
def RpcTransaction.locationAt (tx : RpcTransaction) (signature : String)
    (place : Nat × Option Nat) : Location where
  signature := signature
  slot := tx.slot
  timestamp := tx.blockTime
  instructionIndex := place.1
  innerInstructionIndex := place.2

/-- A key names the place in the transaction. -/
theorem place_of_key {slot slot' : Int} {timestamp timestamp' : Option Int}
    {place place' : Nat × Option Nat}
    (h : Location.key ⟨signature, slot, timestamp, place.1, place.2⟩ =
      Location.key ⟨signature, slot', timestamp', place'.1, place'.2⟩) : place = place' := by
  obtain ⟨index, inner⟩ := place
  obtain ⟨index', inner'⟩ := place'
  obtain ⟨hindex, hinner⟩ : (index : Int) = index' ∧
      (inner.map fun index : Nat => (index : Int)).getD (-1) =
        (inner'.map fun index : Nat => (index : Int)).getD (-1) := by
    simpa [Location.key] using h
  cases inner with
  | none =>
      cases inner' with
      | none => simpa using hindex
      | some inner' => simp at hinner
  | some inner =>
      cases inner' with
      | none => simp at hinner
      | some inner' => simp_all

/-- The records stand at different places of the transaction. -/
theorem recordsOf_places (hsigned : raw.signatures.head? = some signature)
    (hgrouped : (raw.innerInstructions.map InnerInstructions.index).Nodup)
    (h : recordsOf bs58 raw = .ok records) :
    ∃ places : List (Nat × Option Nat), places.Nodup ∧
      (records.map DecodedRecord.location).Sublist (places.map (raw.locationAt signature)) := by
  unfold recordsOf decodeTransaction at h
  cases hinfo : raw.info with
  | none =>
      rw [hinfo] at h
      cases h
      exact ⟨[], List.nodup_nil, .slnil⟩
  | some info =>
      rw [hinfo] at h
      dsimp only at h
      by_cases herr : info.err.isSome = true
      · rw [if_pos herr] at h
        cases h
        exact ⟨[], List.nodup_nil, .slnil⟩
      · rw [if_neg herr] at h
        obtain ⟨name, hname, h⟩ := bind_ok_iff.mp h
        obtain ⟨located, hlocated, h⟩ := bind_ok_iff.mp h
        obtain ⟨⟨all, remaining⟩, hall, h⟩ := bind_ok_iff.mp h
        obtain ⟨-, h⟩ := require_bind_ok_iff.mp h
        cases h
        obtain rfl : name = signature := by
          rw [okOr_eq_ok, hsigned, Option.filter_eq_some_iff] at hname
          exact (Option.some.inj hname.1).symm
        obtain ⟨added, hadded, hplaces⟩ := decodeAll_places hall
        refine ⟨located.map LocatedInstruction.place,
          transactionInstructions_places hgrouped hlocated, ?_⟩
        rw [List.nil_append] at hadded
        dsimp only at hadded
        rw [hadded, List.map_map]
        exact hplaces.trans (List.filter_sublist.map _)

/-- The records of a transaction carry its signature, slot and time, and have different keys. -/
theorem recordsOf_keys (hsigned : raw.signatures.head? = some signature)
    (hgrouped : (raw.innerInstructions.map InnerInstructions.index).Nodup)
    (h : recordsOf bs58 raw = .ok records) :
    (∀ record ∈ records, record.location.signature = signature ∧
      record.location.slot = raw.slot ∧ record.location.timestamp = raw.blockTime) ∧
      (records.map DecodedRecord.key).Nodup := by
  obtain ⟨places, hnodup, hsub⟩ := recordsOf_places hsigned hgrouped h
  have hlocated : ∀ record ∈ records, ∃ place, record.location = raw.locationAt signature place := by
    intro record hrecord
    obtain ⟨place, -, hplace⟩ := List.mem_map.mp (hsub.subset (List.mem_map_of_mem hrecord))
    exact ⟨place, hplace.symm⟩
  refine ⟨?_, ?_⟩
  · intro record hrecord
    obtain ⟨place, hplace⟩ := hlocated record hrecord
    rw [hplace]
    exact ⟨rfl, rfl, rfl⟩
  · have hsubKeys := hsub.map Location.key
    rw [List.map_map, List.map_map] at hsubKeys
    refine (hnodup.map ?_).sublist hsubKeys
    intro place place' heq
    exact place_of_key heq

end Records

end Veto.Service
