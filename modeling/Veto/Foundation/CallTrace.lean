import Mathlib.Data.List.Basic

/-!
# Nested call traces

A run of programs calling each other is written out as one flat sequence: a mark where
a call opens, the lines the running program writes, a mark where the call closes.  A
reader that keeps a stack of the open calls gives each line back to the program that
wrote it.
-/

namespace Veto.Foundation

/-- What is written from some point on, until the call open at that point closes. -/
inductive CallTrace (Name Line Call : Type) where
  | done : CallTrace Name Line Call
  | line (text : Line) (rest : CallTrace Name Line Call) : CallTrace Name Line Call
  | call (name : Name) (how : Call) (body rest : CallTrace Name Line Call) :
      CallTrace Name Line Call

/-- One entry of the flat sequence, as a reader takes it. -/
inductive Mark (Name Line : Type) where
  | enter (name : Name)
  | leave (name : Name)
  | line (text : Line)
  | skip

namespace CallTrace

variable {Name Line Call : Type}

section

variable (keeps : Line → Bool) (heard : Call → Bool)

/-- The kept lines written while the innermost open call is one of `mine`, in order;
`top` is the call that is open where the trace begins. -/
def writtenBy (mine : Name → Bool) : Option Name → CallTrace Name Line Call → List Line
  | _, done => []
  | top, line text rest =>
      if keeps text && top.any mine then text :: writtenBy mine top rest
      else writtenBy mine top rest
  | top, call name _ body rest => writtenBy mine (some name) body ++ writtenBy mine top rest

/-- Nothing is kept of this trace. -/
def Silent : CallTrace Name Line Call → Prop
  | done => True
  | line text rest => keeps text = false ∧ Silent rest
  | call _ _ body rest => Silent body ∧ Silent rest

/-- A call whose closing mark the reader cannot make out is the last that is heard:
nothing is kept from there to the end, where `after` says so of what follows the trace. -/
def Settled : Prop → CallTrace Name Line Call → Prop
  | _, done => True
  | after, line _ rest => Settled after rest
  | after, call _ how body rest =>
      Settled (Silent keeps rest ∧ after) body ∧ Settled after rest ∧
        (heard how = false → Silent keeps rest ∧ after)

/-- The flat sequence, as a reader takes it. -/
def marks : CallTrace Name Line Call → List (Mark Name Line)
  | done => []
  | line text rest => (if keeps text then .line text else .skip) :: marks rest
  | call name how body rest =>
      .enter name :: (marks body ++ (if heard how then .leave name else .skip) :: marks rest)

end

/-- Read a flat sequence with the stack of the open calls, innermost first. -/
def scan [DecidableEq Name] (mine : Name → Bool) : List Name → List (Mark Name Line) → List Line
  | _, [] => []
  | stack, .enter name :: rest => scan mine (name :: stack) rest
  | stack, .leave name :: rest =>
      if stack.head? = some name then scan mine stack.tail rest else scan mine stack rest
  | stack, .line text :: rest =>
      if stack.head?.any mine then text :: scan mine stack rest else scan mine stack rest
  | stack, .skip :: rest => scan mine stack rest

/-- The sequence holds no line. -/
def Lineless (later : List (Mark Name Line)) : Prop := ∀ text, Mark.line text ∉ later

variable {keeps : Line → Bool} {heard : Call → Bool} {mine : Name → Bool}
  {t : CallTrace Name Line Call} {stack : List Name} {later : List (Mark Name Line)}

theorem lineless_nil : Lineless ([] : List (Mark Name Line)) := by
  intro text htext
  cases htext

theorem Lineless.append {l₁ l₂ : List (Mark Name Line)} (h₁ : Lineless l₁)
    (h₂ : Lineless l₂) : Lineless (l₁ ++ l₂) := by
  intro text htext
  cases List.mem_append.mp htext with
  | inl h => exact h₁ text h
  | inr h => exact h₂ text h

theorem lineless_marks (h : Silent keeps t) : Lineless (t.marks keeps heard) := by
  induction t with
  | done =>
      intro text htext
      cases htext
  | line text rest ih =>
      intro other hother
      rw [marks, h.1] at hother
      apply ih h.2 other
      simpa using hother
  | call name how body rest ihBody ihRest =>
      intro text htext
      have hcases : Mark.line text ∈ body.marks keeps heard ∨
          Mark.line text ∈ rest.marks keeps heard := by
        by_cases hheard : heard how
        · simpa [marks, hheard] using htext
        · simpa [marks, hheard] using htext
      cases hcases with
      | inl hbody => exact ihBody h.1 text hbody
      | inr hrest => exact ihRest h.2 text hrest

theorem writtenBy_silent (h : Silent keeps t) (top : Option Name) :
    t.writtenBy keeps mine top = [] := by
  induction t generalizing top with
  | done => rfl
  | line text rest ih => simp [writtenBy, h.1, ih h.2]
  | call name how body rest ihBody ihRest => simp [writtenBy, ihBody h.1, ihRest h.2]

theorem Settled.mono {after after' : Prop} (h : t.Settled keeps heard after)
    (himp : after → after') : t.Settled keeps heard after' := by
  induction t generalizing after after' with
  | done => trivial
  | line text rest ih => exact ih h himp
  | call name how body rest ihBody ihRest =>
      refine ⟨ihBody h.1 (And.imp_right himp), ihRest h.2.1 himp, ?_⟩
      intro hheard
      exact And.imp_right himp (h.2.2 hheard)

section

variable [DecidableEq Name]

theorem scan_lineless (h : Lineless later) : scan mine stack later = [] := by
  induction later generalizing stack with
  | nil => rfl
  | cons m later ih =>
      have hrest : Lineless later := fun text htext => h text (List.mem_cons_of_mem _ htext)
      cases m with
      | enter name => exact ih hrest
      | leave name =>
          unfold scan
          split
          · exact ih hrest
          · exact ih hrest
      | line text => exact absurd List.mem_cons_self (h text)
      | skip => exact ih hrest

/-- The stack reader gives every line back to the call that wrote it.  Induction on the
trace, for every stack below it and everything that follows it. -/
theorem scan_marks (mine : Name → Bool) (stack : List Name)
    (h : t.Settled keeps heard (Lineless later)) :
    scan mine stack (t.marks keeps heard ++ later) =
      t.writtenBy keeps mine stack.head? ++ scan mine stack later := by
  induction t generalizing stack later with
  | done => rfl
  | line text rest ih =>
      have hrest := ih stack h
      by_cases hkeeps : keeps text
      · by_cases htop : stack.head?.any mine
        · simp [marks, writtenBy, scan, hkeeps, htop, hrest]
        · simp [marks, writtenBy, scan, hkeeps, htop, hrest]
      · simp [marks, writtenBy, scan, hkeeps, hrest]
  | call name how body rest ihBody ihRest =>
      obtain ⟨hbody, hrest, hunheard⟩ := h
      let close : Mark Name Line := if heard how then .leave name else .skip
      have hfollows : Silent keeps rest ∧ Lineless later →
          Lineless (close :: (rest.marks keeps heard ++ later)) := by
        rintro ⟨hsilent, hlater⟩
        have hclose : Lineless [close] := by
          intro text htext
          by_cases hheard : heard how
          · simp [close, hheard] at htext
          · simp [close, hheard] at htext
        exact hclose.append ((lineless_marks hsilent).append hlater)
      have hinner := ihBody (name :: stack) (hbody.mono hfollows)
      have houter : scan mine (name :: stack) (close :: (rest.marks keeps heard ++ later)) =
          rest.writtenBy keeps mine stack.head? ++ scan mine stack later := by
        by_cases hheard : heard how
        · -- the closing mark takes the call off the stack again
          have hpop : scan mine (name :: stack) (close :: (rest.marks keeps heard ++ later)) =
              scan mine stack (rest.marks keeps heard ++ later) := by
            simp [close, hheard, scan]
          rw [hpop, ihRest stack hrest]
        · -- the call stays on the stack, and nothing is kept any more
          obtain ⟨hsilent, hlater⟩ := hunheard (by simpa using hheard)
          rw [scan_lineless (hfollows ⟨hsilent, hlater⟩), scan_lineless hlater,
            writtenBy_silent hsilent]
          rfl
      calc scan mine stack ((call name how body rest).marks keeps heard ++ later)
          = scan mine (name :: stack)
              (body.marks keeps heard ++ close :: (rest.marks keeps heard ++ later)) := by
            simp [marks, scan, close]
        _ = body.writtenBy keeps mine (some name) ++
              (rest.writtenBy keeps mine stack.head? ++ scan mine stack later) := by
            rw [hinner, houter]
            rfl
        _ = (call name how body rest).writtenBy keeps mine stack.head? ++
              scan mine stack later := by
            rw [writtenBy, List.append_assoc]

end

/-! ### Calls of a trace -/

/-- The calls in the order they open. -/
def calls : CallTrace Name Line Call → List Name
  | done => []
  | line _ rest => calls rest
  | call name _ body rest => name :: (calls body ++ calls rest)

/-- The outermost calls, each with what it wrote and called. -/
def topCalls : CallTrace Name Line Call → List (Name × CallTrace Name Line Call)
  | done => []
  | line _ rest => topCalls rest
  | call name _ body rest => (name, body) :: topCalls rest

theorem flatMap_topCalls (t : CallTrace Name Line Call) :
    t.topCalls.flatMap (fun c => c.1 :: c.2.calls) = t.calls := by
  induction t with
  | done => rfl
  | line text rest ih => exact ih
  | call name how body rest _ ih => rw [topCalls, List.flatMap_cons, ih, calls, List.cons_append]

/-- The same trace under other names. -/
def map {Name' Call' : Type} (f : Name → Name') (g : Call → Call') :
    CallTrace Name Line Call → CallTrace Name' Line Call'
  | done => done
  | line text rest => line text (map f g rest)
  | call name how body rest => call (f name) (g how) (map f g body) (map f g rest)

theorem writtenBy_map {Name' Call' : Type} {f : Name → Name'} {g : Call → Call'}
    {mine : Name' → Bool} (t : CallTrace Name Line Call) (top : Option Name) :
    (t.map f g).writtenBy keeps mine (top.map f) = t.writtenBy keeps (fun n => mine (f n)) top := by
  induction t generalizing top with
  | done => rfl
  | line text rest ih => simp only [map, writtenBy, ih, Option.any_map]
  | call name how body rest ihBody ihRest =>
      rw [map, writtenBy, writtenBy, ihRest, ← ihBody (some name)]
      rfl

/-- Under calls that are all made out, a trace is settled. -/
theorem settled_map {Name' Call' : Type} {f : Name → Name'} {g : Call → Call'}
    {heard : Call' → Bool} (h : ∀ how, heard (g how) = true) (t : CallTrace Name Line Call)
    (after : Prop) : (t.map f g).Settled keeps heard after := by
  induction t generalizing after with
  | done => trivial
  | line text rest ih => exact ih after
  | call name how body rest ihBody ihRest =>
      refine ⟨ihBody _, ihRest after, ?_⟩
      intro hunheard
      rw [h how] at hunheard
      cases hunheard

end CallTrace

end Veto.Foundation
