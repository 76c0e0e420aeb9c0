import Veto.Logs.Trace
import Veto.Service.Decode

/-!
# Committed transactions

What a transaction ran, as a call trace: instructions of the program with the events they
emitted, calls of other programs, and the lines each wrote.  `Shows` says that an RPC answer
is the one a node gives for it, and the lemmas say what the decoder reads there.
-/

namespace Veto.Service

open Foundation Logs

/-- `PROGRAM_ID`. -/
def PROGRAM_ID : ProgramId where
  chars := lit "3zNp5EuQ61pR9stq4rzYsRQnjg4AYAgW8nxRje6koQmV"
  base58 := List.all_eq_true.mp (by decide +kernel)
  nonempty := by decide +kernel

/-! ## What a transaction ran -/

/-- One run of an instruction of the program: the accounts and bytes behind those it names and
reads, and the events it emitted. -/
structure VetoCall where
  instr : VetoInstr
  more : List Pubkey
  trailing : Bytes
  events : List VetoEvent

def VetoCall.accounts (call : VetoCall) : List Pubkey := call.instr.accounts ++ call.more

def VetoCall.data (call : VetoCall) : Bytes :=
  call.instr.discriminator ++ (call.instr.args ++ call.trailing)

inductive Invoked
  | veto (call : VetoCall)
  | foreign (program : ProgramId) (accounts : List Pubkey) (data : Bytes)

namespace Invoked

variable (veto : ProgramId)

def program : Invoked → ProgramId
  | .veto _ => veto
  | foreign program _ _ => program

def accounts : Invoked → List Pubkey
  | .veto call => call.accounts
  | foreign _ accounts _ => accounts

def data : Invoked → Bytes
  | .veto call => call.data
  | foreign _ _ data => data

def vetoCall : Invoked → Option VetoCall
  | .veto call => some call
  | foreign _ _ _ => none

end Invoked

/-- A transaction, with the depth of each call. -/
abbrev TxTrace := CallTrace Invoked LogLine Nat

namespace TxTrace

variable (veto : ProgramId)

/-- No instruction of the program runs in there. -/
def Foreign : TxTrace → Prop
  | .done => True
  | .line _ rest => Foreign rest
  | .call (.veto _) _ _ _ => False
  | .call (.foreign program _ _) _ body rest => program ≠ veto ∧ Foreign body ∧ Foreign rest

/-- The texts of the data lines that the running program writes itself. -/
def dataTexts : TxTrace → List Text
  | .done => []
  | .line (.data text) rest => text :: dataTexts rest
  | .line _ rest => dataTexts rest
  | .call _ _ _ rest => dataTexts rest

/-- The program runs each of its instructions as it must, writes the events as data lines, and
does not come to run below itself. -/
def WellRun : TxTrace → Prop
  | .done => True
  | .line _ rest => WellRun rest
  | .call (.veto call) _ body rest =>
      (call.instr.Runs call.events ∧
        dataTexts body = call.events.map (fun event => Indexer.dataText event.bytes) ∧
        Foreign veto body) ∧ WellRun rest
  | .call (.foreign program _ _) _ body rest => program ≠ veto ∧ WellRun body ∧ WellRun rest

/-- The runs of the program's instructions, in order. -/
def vetoCalls (t : TxTrace) : List VetoCall := t.calls.filterMap Invoked.vetoCall

/-- The log of a transaction that succeeded. -/
def log (t : TxTrace) : LogTrace where
  calls := t.map (Invoked.program veto) fun depth => ⟨depth, .success⟩
  settled := CallTrace.settled_map (fun _ => rfl) t True

end TxTrace

/-! ## The events that are read -/

variable {veto : ProgramId} {t body : TxTrace} {call : VetoCall} {top : Option Invoked}

/-- The buffer of a line. -/
def lineBuffer (line : Text) : Option Bytes := (Indexer.programData line).map Indexer.fromBase64

/-- The buffers of what the program wrote. -/
def buffers (veto : ProgramId) (top : Option Invoked) (t : TxTrace) : List Bytes :=
  (t.writtenBy LogLine.said (fun i => (i.program veto).chars = veto.chars) top).filterMap fun l =>
    lineBuffer l.text

theorem lineBuffer_log (text : Text) : lineBuffer (LogLine.log text).text = none := by
  simp [lineBuffer, Indexer.programData, LogLine.text, lit, List.dropPrefix?]

theorem event_bytes_ne_nil (event : VetoEvent) : event.bytes ≠ [] := by
  have hcases : ∀ disc rest : Bytes, disc ≠ [] → disc ++ rest ≠ [] :=
    fun disc rest h => List.append_ne_nil_of_left_ne_nil h rest
  cases event with
  | mandate event => cases event <;> exact hcases _ _ (by decide)
  | trade event => cases event <;> exact hcases _ _ (by decide)
  | hold event => exact hcases _ _ (by cases event <;> (simp only [HoldEvent.disc]; decide))

theorem chars_ne {program : ProgramId} {accounts : List Pubkey} {data : Bytes}
    (h : program ≠ veto) :
    ((Invoked.foreign program accounts data).program veto).chars ≠ veto.chars :=
  fun heq => h (ProgramId.ext_iff'.mpr heq)

/-- Other programs write nothing in the program's name. -/
theorem written_foreign {top : Invoked} (h : t.Foreign veto)
    (htop : (top.program veto).chars ≠ veto.chars) :
    t.writtenBy LogLine.said (fun i => (i.program veto).chars = veto.chars) (some top) = [] := by
  induction t generalizing top with
  | done => rfl
  | line l rest ih => rw [CallTrace.writtenBy, if_neg (by simp [htop]), ih h htop]
  | call name how body rest ihBody ihRest =>
      cases name with
      | veto call => exact h.elim
      | foreign program accounts data =>
          obtain ⟨hne, hbody, hrest⟩ := h
          rw [CallTrace.writtenBy, ihBody hbody (chars_ne hne), ihRest hrest htop,
            List.append_nil]

/-- Below an instruction of the program nothing else of it is written. -/
theorem buffers_body (h : t.Foreign veto) :
    buffers veto (some (.veto call)) t =
      t.dataTexts.filterMap fun text => lineBuffer (lit "Program data:" ++ text) := by
  unfold buffers
  induction t with
  | done => rfl
  | line l rest ih =>
      have ih := ih h
      cases l with
      | log text =>
          rw [CallTrace.writtenBy, if_pos (by simp [LogLine.said, Invoked.program]),
            List.filterMap_cons, lineBuffer_log, ih]
          rfl
      | data text =>
          rw [CallTrace.writtenBy, if_pos (by simp [LogLine.said, Invoked.program]),
            TxTrace.dataTexts, List.filterMap_cons, List.filterMap_cons, ih]
          rfl
      | note n =>
          rw [CallTrace.writtenBy, if_neg (by simp [LogLine.said]), ih]
          rfl
  | call name how body rest ihBody ihRest =>
      cases name with
      | veto call => exact h.elim
      | foreign program accounts data =>
          obtain ⟨hprogram, hbody, hrest⟩ := h
          rw [CallTrace.writtenBy, written_foreign hbody (chars_ne hprogram), List.nil_append,
            ihRest hrest]
          rfl

theorem vetoCalls_foreign (h : t.Foreign veto) : t.vetoCalls = [] := by
  unfold TxTrace.vetoCalls
  induction t with
  | done => rfl
  | line l rest ih => exact ih h
  | call name how body rest ihBody ihRest =>
      cases name with
      | veto call => exact h.elim
      | foreign program accounts data =>
          obtain ⟨-, hbody, hrest⟩ := h
          rw [CallTrace.calls, List.filterMap_cons_none rfl, List.filterMap_append, ihBody hbody,
            ihRest hrest]
          rfl

theorem vetoCalls_veto {how : Nat} {rest : TxTrace} (h : body.Foreign veto) :
    TxTrace.vetoCalls (.call (.veto call) how body rest) = call :: rest.vetoCalls := by
  have hbody := vetoCalls_foreign h
  unfold TxTrace.vetoCalls at *
  rw [CallTrace.calls, List.filterMap_cons, List.filterMap_append, hbody, List.nil_append]
  rfl

theorem vetoCalls_other {program : ProgramId} {accounts : List Pubkey} {data : Bytes} {how : Nat}
    {rest : TxTrace} :
    TxTrace.vetoCalls (.call (.foreign program accounts data) how body rest) =
      body.vetoCalls ++ rest.vetoCalls := by
  unfold TxTrace.vetoCalls
  rw [CallTrace.calls, List.filterMap_cons_none rfl, List.filterMap_append]

/-- Outside its own instructions the buffers of the program are the events of those. -/
theorem buffers_wellRun (h : t.WellRun veto)
    (htop : ∀ i, top = some i → (i.program veto).chars ≠ veto.chars) :
    buffers veto top t = t.vetoCalls.flatMap fun call => call.events.map VetoEvent.bytes := by
  have hmine : top.any (fun i => decide ((i.program veto).chars = veto.chars)) = false := by
    cases top with
    | none => rfl
    | some i => simpa using htop i rfl
  induction t generalizing top with
  | done => rfl
  | line l rest ih =>
      have hrest := ih h htop hmine
      unfold buffers at *
      rw [CallTrace.writtenBy, if_neg (by simp [hmine]), hrest]
      rfl
  | call name how body rest ihBody ihRest =>
      cases name with
      | veto call =>
          obtain ⟨⟨-, hdata, hforeign⟩, hrest⟩ := h
          have hrest := ihRest hrest htop hmine
          have hbody : buffers veto (some (.veto call)) body = _ := buffers_body hforeign
          have hread : ∀ event : VetoEvent,
              lineBuffer (lit "Program data:" ++ Indexer.dataText event.bytes) =
                some event.bytes := fun event =>
            Indexer.programData_line (event_bytes_ne_nil event)
          rw [vetoCalls_veto hforeign, List.flatMap_cons, ← hrest]
          unfold buffers at *
          rw [CallTrace.writtenBy, List.filterMap_append, hbody, hdata, List.filterMap_map]
          congr 1
          simp only [Function.comp_def, hread, List.filterMap_eq_map']
      | foreign program accounts data =>
          obtain ⟨hprogram, hbody, hrest⟩ := h
          have hchars : ((Invoked.foreign program accounts data).program veto).chars ≠ veto.chars :=
            chars_ne hprogram
          have hother : ∀ i, some (Invoked.foreign program accounts data) = some i →
              (i.program veto).chars ≠ veto.chars := by
            intro i hi
            cases hi
            exact hchars
          have hbody := ihBody hbody hother (by simpa using hchars)
          have hrest := ihRest hrest htop hmine
          rw [vetoCalls_other, List.flatMap_append, ← hbody, ← hrest]
          unfold buffers
          rw [CallTrace.writtenBy, List.filterMap_append]

/-- Without a call there is no line of a frame, and with one there is. -/
theorem framed_log (t : TxTrace) :
    framed (t.log veto).lines = true ∨ t.calls = [] := by
  have hall : framed (linesOf (t.map (Invoked.program veto)
      fun depth => (⟨depth, .success⟩ : Frame))) = true ∨ t.calls = [] := by
    induction t with
    | done => exact .inr rfl
    | line l rest ih =>
        rcases ih with h | h
        · left
          rw [CallTrace.map, linesOf, framed, List.any_cons]
          unfold framed at h
          rw [h, Bool.or_true]
        · exact .inr h
    | call name how body rest _ _ =>
        left
        rw [CallTrace.map, linesOf, framed, List.any_cons, programInvoke_invokeLine]
        rfl
  exact hall

/-- The buffers that the program wrote are the events of its instructions. -/
theorem dataBuffers_log (h : t.WellRun veto) :
    Indexer.dataBuffers (t.log veto).lines veto.chars =
      t.vetoCalls.flatMap fun call => call.events.map VetoEvent.bytes := by
  unfold Indexer.dataBuffers
  by_cases hframed : framed (t.log veto).lines = true
  · obtain ⟨hsdk, hsame⟩ := lines_attributed (t.log veto) veto.chars hframed
    have htop : ∀ i, (none : Option Invoked) = some i → (i.program veto).chars ≠ veto.chars :=
      fun i hi => nomatch hi
    rw [hsame, hsdk, ← buffers_wellRun h htop]
    unfold LogTrace.saidBy buffers
    have hmap : (t.log veto).calls.writtenBy LogLine.said
        (fun program => program.chars = veto.chars) ((none : Option Invoked).map _) = _ :=
      CallTrace.writtenBy_map t none
    rw [List.filterMap_map, ← hmap]
    rfl
  · -- nothing ran, so the log is read as empty
    have hcalls : t.calls = [] := (framed_log t).resolve_left hframed
    unfold Indexer.linesForProgram TxTrace.vetoCalls
    rw [if_pos (by simpa using hframed), hcalls]
    rfl

/-- The events that the indexer reads in the log of a transaction. -/
theorem decodeEventsFromLogs_log (h : t.WellRun veto) :
    Indexer.decodeEventsFromLogs (t.log veto).lines veto.chars =
      t.vetoCalls.flatMap fun call => call.events.filterMap VetoInstr.readEvent := by
  unfold Indexer.decodeEventsFromLogs
  rw [dataBuffers_log h, List.filterMap_flatMap]
  simp only [List.filterMap_map]
  rfl

/-! ## The answer of a node -/

/-- The instruction as the decoder sees it. -/
def Invoked.located (veto : ProgramId) (i : Invoked) (index : Nat) (inner : Option Nat) :
    LocatedInstruction where
  programId := String.ofList (i.program veto).chars
  accounts := i.accounts.map Pubkey.display
  data := i.data
  instructionIndex := index
  innerInstructionIndex := inner

/-- The compiled instruction is this one. -/
structure Compiled (bs58 : Text → Option Bytes) (veto : ProgramId) (keys : List String)
    (ix : RpcInstruction) (i : Invoked) : Prop where
  program : keys[ix.programIdIndex]? = some (String.ofList (i.program veto).chars)
  accounts : List.Forall₂ (fun index key => keys[index]? = some (Pubkey.display key)) ix.accounts
    i.accounts
  data : bs58 ix.data = some i.data

/-- The node answers with the transaction: its instructions in order, the inner ones in one
group for each that has some, and its whole log. -/
structure Shows (bs58 : Text → Option Bytes) (veto : ProgramId) (tx : RpcTransaction)
    (t : TxTrace) : Prop where
  signed : ∃ signature, tx.signatures.head? = some signature ∧ signature ≠ ""
  logged : ∃ info, tx.info = some info ∧ info.err = none ∧
    info.logMessages = some (t.log veto).lines
  top : List.Forall₂ (Compiled bs58 veto tx.keys) tx.instructions (t.topCalls.map Prod.fst)
  inner : ∀ index i body, t.topCalls[index]? = some (i, body) →
    (tx.innerInstructions.filter (fun group => group.index = index) = [] ∧ body.calls = []) ∨
    ∃ group, tx.innerInstructions.filter (fun group => group.index = index) = [group] ∧
      List.Forall₂ (Compiled bs58 veto tx.keys) group.instructions body.calls

/-- The calls with their places. -/
def TxTrace.placed (t : TxTrace) : List (Invoked × Nat × Option Nat) :=
  t.topCalls.zipIdx.flatMap fun c =>
    (c.1.1, c.2, none) :: c.1.2.calls.zipIdx.map fun inner => (inner.1, c.2, some inner.2)

theorem placed_calls (t : TxTrace) : t.placed.map Prod.fst = t.calls := by
  have hparts : ∀ c : (Invoked × TxTrace) × Nat,
      ((c.1.1, c.2, none) :: c.1.2.calls.zipIdx.map fun inner =>
        (inner.1, c.2, some inner.2) : List (Invoked × Nat × Option Nat)).map Prod.fst =
      c.1.1 :: c.1.2.calls := by
    intro c
    rw [List.map_cons, List.map_map]
    congr 1
    exact List.zipIdx_map_fst 0 c.1.2.calls
  unfold TxTrace.placed
  rw [List.map_flatMap, ← CallTrace.flatMap_topCalls]
  simp only [hparts]
  conv_rhs => rw [← List.zipIdx_map_fst 0 t.topCalls, List.flatMap_map]

variable {bs58 : Text → Option Bytes} {tx : RpcTransaction} {keys : List String}

theorem locate_compiled {ix : RpcInstruction} {i : Invoked} (h : Compiled bs58 veto keys ix i)
    (index : Nat) (inner : Option Nat) :
    locate bs58 keys ix index inner = .ok (i.located veto index inner) := by
  have haccounts : ∀ {indexes : List Nat} {accounts : List Pubkey},
      List.Forall₂ (fun index key => keys[index]? = some (Pubkey.display key)) indexes accounts →
      indexes.mapM (keyAt keys) = .ok (accounts.map Pubkey.display) := by
    intro indexes accounts hall
    induction hall with
    | nil => rfl
    | cons hkey _ ih =>
        rw [List.mapM_cons, keyAt, hkey, ih]
        rfl
  unfold locate
  rw [keyAt, h.program, haccounts h.accounts, decodeIxData, h.data]
  rfl

theorem locate_inner {index : Nat} {instructions : List RpcInstruction} {calls : List Invoked}
    (h : List.Forall₂ (Compiled bs58 veto keys) instructions calls) (start : Nat) :
    (instructions.zipIdx start).mapM (fun (inner, innerIndex) =>
        locate bs58 keys inner index (some innerIndex)) =
      .ok ((calls.zipIdx start).map fun inner => inner.1.located veto index (some inner.2)) := by
  induction h generalizing start with
  | nil => rfl
  | cons hcompiled _ ih =>
      rw [List.zipIdx_cons, List.zipIdx_cons, List.mapM_cons]
      simp only [locate_compiled hcompiled, ih]
      rfl

/-- The decoder flattens the answer to the calls in the order they opened. -/
theorem transactionInstructions_shows (h : Shows bs58 veto tx t) :
    transactionInstructions bs58 tx =
      .ok (t.placed.map fun p => p.1.located veto p.2.1 p.2.2) := by
  have hgroups : ∀ index i body, t.topCalls[index]? = some (i, body) →
      (tx.innerInstructions.filter fun group => group.index = index).mapM (fun group =>
        group.instructions.zipIdx.mapM fun (inner, innerIndex) =>
          locate bs58 tx.keys inner index (some innerIndex)) >>= (fun groups =>
        (.ok groups.flatten : Except String (List LocatedInstruction))) =
      .ok (body.calls.zipIdx.map fun inner => inner.1.located veto index (some inner.2)) := by
    intro index i body hbody
    rcases h.inner index i body hbody with ⟨hnone, hcalls⟩ | ⟨group, hone, hall⟩
    · rw [hnone, hcalls]
      rfl
    · rw [hone, List.mapM_cons, locate_inner hall 0, List.mapM_nil]
      change Except.ok [_].flatten = _
      rw [List.flatten_singleton]
  -- the parts one after the other, from any index on
  have hparts : ∀ (front : List (Invoked × TxTrace)) (instructions : List RpcInstruction)
      (calls : List (Invoked × TxTrace)), front ++ calls = t.topCalls →
      List.Forall₂ (Compiled bs58 veto tx.keys) instructions (calls.map Prod.fst) →
      (instructions.zipIdx front.length).mapM (fun (ix, index) => do
        let top ← locate bs58 tx.keys ix index none
        let groups ← (tx.innerInstructions.filter fun group => group.index = index).mapM
          fun group => group.instructions.zipIdx.mapM fun (inner, innerIndex) =>
            locate bs58 tx.keys inner index (some innerIndex)
        return top :: groups.flatten) =
      (.ok ((calls.zipIdx front.length).map fun c : (Invoked × TxTrace) × Nat =>
        c.1.1.located veto c.2 none ::
          c.1.2.calls.zipIdx.map fun inner => inner.1.located veto c.2 (some inner.2)) :
        Except String (List (List LocatedInstruction))) := by
    intro front instructions calls hsplit hall
    induction calls generalizing front instructions with
    | nil =>
        cases hall
        rfl
    | cons c calls ih =>
        cases hall with
        | cons hcompiled hrest =>
            have hat : t.topCalls[front.length]? = some (c.1, c.2) := by
              rw [← hsplit, List.getElem?_append_right (le_refl _), Nat.sub_self]
              rfl
            have hlater := ih (front ++ [c]) _ (by rw [← hsplit, List.append_assoc]; rfl) hrest
            rw [List.length_append, List.length_singleton] at hlater
            obtain ⟨groups, hread, hflat⟩ := bind_ok_iff.mp (hgroups front.length c.1 c.2 hat)
            have hflat := Except.ok.inj hflat
            rw [List.zipIdx_cons, List.zipIdx_cons, List.mapM_cons]
            simp only [locate_compiled hcompiled, hlater, hread, ok_bind]
            rw [List.map_cons, ← hflat]
            rfl
  unfold transactionInstructions
  have hall := hparts [] tx.instructions t.topCalls rfl h.top
  rw [List.length_nil] at hall
  rw [hall, ok_bind]
  unfold TxTrace.placed
  rw [List.map_flatMap]
  change Except.ok (List.flatten _) = _
  rw [← List.flatMap_def]
  simp only [List.map_cons, List.map_map]
  rfl

/-! ## The program's own instructions -/

/-- The runs of the program's instructions with their places. -/
def TxTrace.placedVeto (t : TxTrace) : List (VetoCall × Nat × Option Nat) :=
  t.placed.filterMap fun p => p.1.vetoCall.map fun call => (call, p.2)

theorem placedVeto_calls (t : TxTrace) : t.placedVeto.map Prod.fst = t.vetoCalls := by
  unfold TxTrace.placedVeto TxTrace.vetoCalls
  rw [← placed_calls, List.map_filterMap, List.filterMap_map]
  apply List.filterMap_congr
  rintro ⟨i, place⟩ _
  cases i <;> rfl

/-- Every call that is no run of the program's is a call of another program. -/
theorem program_of_calls (h : t.WellRun veto) {i : Invoked} (hi : i ∈ t.calls) :
    i.vetoCall = none → i.program veto ≠ veto := by
  have hforeign : ∀ {s : TxTrace}, s.Foreign veto → ∀ i ∈ s.calls, i.program veto ≠ veto := by
    intro s hs i hi
    induction s with
    | done => cases hi
    | line l rest ih => exact ih hs hi
    | call name how body rest ihBody ihRest =>
        cases name with
        | veto call => exact hs.elim
        | foreign program accounts data =>
            obtain ⟨hne, hbody, hrest⟩ := hs
            rcases List.mem_cons.mp hi with rfl | hi
            · exact hne
            · rcases List.mem_append.mp hi with hi | hi
              · exact ihBody hbody hi
              · exact ihRest hrest hi
  intro hnone
  induction t with
  | done => cases hi
  | line l rest ih => exact ih h hi
  | call name how body rest ihBody ihRest =>
      cases name with
      | veto call =>
          obtain ⟨⟨-, -, hbody⟩, hrest⟩ := h
          rcases List.mem_cons.mp hi with rfl | hi
          · cases hnone
          · rcases List.mem_append.mp hi with hi | hi
            · exact hforeign hbody i hi
            · exact ihRest hrest hi
      | foreign program accounts data =>
          obtain ⟨hne, hbody, hrest⟩ := h
          rcases List.mem_cons.mp hi with rfl | hi
          · exact hne
          · rcases List.mem_append.mp hi with hi | hi
            · exact ihBody hbody hi
            · exact ihRest hrest hi

/-- The instructions that the decoder keeps are the runs of the program's. -/
theorem filter_located (h : t.WellRun veto) :
    (t.placed.map fun p => p.1.located veto p.2.1 p.2.2).filter
        (fun ix => ix.programId = String.ofList veto.chars) =
      t.placedVeto.map fun p => (Invoked.veto p.1).located veto p.2.1 p.2.2 := by
  unfold TxTrace.placedVeto
  rw [List.map_filterMap, List.filter_map, ← List.filterMap_eq_map, List.filterMap_filter]
  apply List.filterMap_congr
  intro p hp
  have hcall : p.1 ∈ t.calls := by
    rw [← placed_calls]
    exact List.mem_map_of_mem hp
  obtain ⟨i, index, inner⟩ := p
  cases i with
  | veto call => simp [Invoked.located, Invoked.program, Invoked.vetoCall]
  | foreign program accounts data =>
      have hne := program_of_calls h hcall rfl
      have hchars : program.chars ≠ veto.chars := fun heq => hne (ProgramId.ext_iff'.mpr heq)
      have htext : String.ofList program.chars ≠ String.ofList veto.chars :=
        fun heq => hchars (by simpa using congrArg String.toList heq)
      simp [Invoked.located, Invoked.program, Invoked.vetoCall, htext]

theorem runs_of_vetoCalls (h : t.WellRun veto) {call : VetoCall} (hcall : call ∈ t.vetoCalls) :
    call.instr.Runs call.events := by
  induction t with
  | done => cases hcall
  | line l rest ih => exact ih h hcall
  | call name how body rest ihBody ihRest =>
      cases name with
      | veto first =>
          obtain ⟨⟨hruns, -, hbody⟩, hrest⟩ := h
          rw [vetoCalls_veto hbody] at hcall
          rcases List.mem_cons.mp hcall with rfl | hcall
          · exact hruns
          · exact ihRest hrest hcall
      | foreign program accounts data =>
          obtain ⟨-, hbody, hrest⟩ := h
          rw [vetoCalls_other] at hcall
          rcases List.mem_append.mp hcall with hcall | hcall
          · exact ihBody hbody hcall
          · exact ihRest hrest hcall

end Veto.Service
