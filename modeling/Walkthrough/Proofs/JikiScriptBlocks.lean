import Walkthrough.JikiScript.Parser
import Walkthrough.Proofs.JikiScriptExpressions

/-! How the blocks of JikiScript are written. Whatever the parser accepts is held against a grammar
of blocks: a body stands between `do` and `end`, and the branches of a conditional are parted by
`else` and share the last `end`. In front of an `else` the parser also lets an `end` pass, and that
is the only place where a source has an `end` too many. -/

namespace Walkthrough.JikiScript

open Walkthrough.Parser

/-! ### Tokens that are no words of blocks -/

/-- The words that open, part and close blocks. -/
def Token.isBlockWord (t : Token) : Bool :=
  [Token.word .doWord, .word .elseWord, .word .endWord].contains t

/-- No word of a block is among the tokens. -/
def Flat (ts : List Token) : Prop :=
  ∀ t ∈ ts, t.isBlockWord = false

section Flat

variable {ts us : List Token} {t : Token}

theorem flat_nil : Flat [] := by
  rintro _ ⟨⟩

theorem flat_cons : Flat (t :: ts) ↔ t.isBlockWord = false ∧ Flat ts :=
  List.forall_mem_cons

theorem flat_append : Flat (ts ++ us) ↔ Flat ts ∧ Flat us :=
  List.forall_mem_append

theorem Flat.cons (h : Flat ts) (plain : t.isBlockWord = false) : Flat (t :: ts) :=
  flat_cons.mpr ⟨plain, h⟩

theorem Flat.append (h : Flat ts) (h' : Flat us) : Flat (ts ++ us) :=
  flat_append.mpr ⟨h, h'⟩

theorem Breaks.flat (h : Breaks ts) : Flat ts := by
  intro t member
  rw [h t member]
  rfl

theorem Literal.flat (value : Literal) : Flat [value.token] := by
  refine flat_nil.cons ?_
  cases value with
  | boolean b => cases b <;> rfl
  | number x | text s | null => rfl

theorem UnaryOp.isBlockWord {op : UnaryOp} (spelled : t ∈ op.spellings) :
    t.isBlockWord = false := by
  cases op <;> simp only [UnaryOp.spellings, List.mem_cons, List.not_mem_nil, or_false] at spelled
  case negate =>
    subst spelled
    rfl
  case not => rcases spelled with rfl | rfl <;> rfl

theorem BinaryOp.flat {op : BinaryOp} (spelled : ts ∈ op.spellings) : Flat ts := by
  have all : ∀ sign ∈ op.spellings, sign.all (fun t => !t.isBlockWord) = true := by
    cases op <;> decide
  intro t member
  simpa using List.all_eq_true.mp (all ts spelled) t member

theorem LogicalOp.flat (op : LogicalOp) : Flat [.word op.keyword] :=
  flat_nil.cons (by cases op <;> rfl)

section Items

variable {α : Type} {gap : List Token → Prop} {spells : α → List Token → Prop} {closing : Mark}
  {items : List α}

theorem Separated.flat (h : Separated gap spells items ts) (gaps : ∀ ts, gap ts → Flat ts)
    (each : ∀ a ∈ items, ∀ ts, spells a ts → Flat ts) : Flat ts := by
  induction h with
  | one written behind => exact (each _ List.mem_cons_self _ written).append (gaps _ behind)
  | more written behind before _ ih =>
      obtain ⟨first, others⟩ := List.forall_mem_cons.mp each
      refine (first _ written).append ((gaps _ behind).append (Flat.cons ?_ rfl))
      exact (gaps _ before).append (ih others)

theorem Enclosed.flat (h : Enclosed Breaks spells closing items ts)
    (each : ∀ a ∈ items, ∀ ts, spells a ts → Flat ts) : Flat ts := by
  have last : Flat [.mark closing] := flat_nil.cons rfl
  cases h with
  | none before => exact before.flat.append last
  | some before separated =>
      exact before.flat.append ((separated.flat (fun _ => Breaks.flat) each).append last)

end Items

mutual

theorem Spells.flat : ∀ (e : Expr) {ts : List Token}, Spells Breaks e ts → Flat ts
  | .literal _ _, _, .literal value _ => value.flat
  | .name _ _, _, .name _ _ => flat_nil.cons rfl
  | .list elements _, _, .list _ enclosed => (enclosed.flat (Spells.flatAll elements)).cons rfl
  | .dictionary entries _, _, .dictionary _ enclosed => by
      refine (enclosed.flat fun entry member ts written => ?_).cons rfl
      cases written with
      | mk before value =>
          have inside := Spells.flatEntries entries _ member _ value
          exact ((before.flat.append inside).cons rfl).cons rfl
  | .unary _ operand _, _, .unary _ spelled inner =>
      (Spells.flat operand inner).cons (UnaryOp.isBlockWord spelled)
  | .binary _ left right _, _, .binary _ spelled first second =>
      (Spells.flat left first).append ((BinaryOp.flat spelled).append (Spells.flat right second))
  | .logical op left right _, _, .logical _ first second =>
      (Spells.flat left first).append (op.flat.append (Spells.flat right second))
  | .grouping inner _, _, .grouping _ written =>
      ((Spells.flat inner written).append (flat_nil.cons rfl)).cons rfl
  | .call _ args _, _, .call _ _ enclosed =>
      ((enclosed.flat (Spells.flatAll args)).cons rfl).cons rfl
  | .index object key _, _, .index _ first second =>
      (Spells.flat object first).append
        (((Spells.flat key second).append (flat_nil.cons rfl)).cons rfl)

theorem Spells.flatAll : ∀ (es : List Expr), ∀ e ∈ es, ∀ ts, Spells Breaks e ts → Flat ts
  | [] => by rintro _ ⟨⟩
  | e :: rest => List.forall_mem_cons.mpr ⟨fun _ => Spells.flat e, Spells.flatAll rest⟩

theorem Spells.flatEntries : ∀ (es : List (String × Expr)), ∀ e ∈ es, ∀ ts,
    Spells Breaks e.2 ts → Flat ts
  | [] => by rintro _ ⟨⟩
  | (_, e) :: rest => List.forall_mem_cons.mpr ⟨fun _ => Spells.flat e, Spells.flatEntries rest⟩

end

end Flat

/-! ### The grammar of blocks -/

def Stmt.isLine : Stmt → Bool
  | .conditional .. => false
  | .repeatTimes .. => false
  | .forEach .. => false
  | .block .. => false
  | .function .. => false
  | _ => true

inductive Parameters : List String → List Token → Prop
  | none : Parameters [] []
  | some {params : List String} {ts : List Token} :
      Separated (· = []) (fun param us => us = [.name param]) params ts →
      Parameters params (.word .withWord :: ts)

/-- What stands in front of the `do` of a statement with one body. -/
inductive Header : Stmt → List Stmt → List Token → Prop
  | repeatTimes {count : Expr} {ts : List Token} (body : List Stmt) (pos : Position) :
      Spells Breaks count ts →
      Header (.repeatTimes count body pos) body
        (.word .repeatWord :: (ts ++ [.word .timesWord]))
  | forEach {iterable : Expr} {ts : List Token} (element : String) (body : List Stmt)
      (pos : Position) : Spells Breaks iterable ts →
      Header (.forEach element iterable body pos) body
        (.word .forWord :: .word .eachWord :: .name element :: .word .inWord :: ts)
  | block (body : List Stmt) (pos : Position) : Header (.block body pos) body []
  | function {params : List String} {ts : List Token} (name : String) (body : List Stmt)
      (pos : Position) : Parameters params ts →
      Header (.function name params body pos) body (.word .functionWord :: .name name :: ts)

/-- What can be written: a statement, a conditional from behind its `if`, or a body. -/
inductive Piece where
  | statement (s : Stmt)
  | branches (s : Stmt)
  | body (statements : List Stmt)

/-- What may close a branch in front of an `else`: nothing, or an `end` that is passed over. -/
def Parts (close : List Token) : Prop :=
  close = [] ∨ close = [.word .endWord]

/-- How statements and their blocks are written. Of a statement of one line, all that counts is that
no word of a block is in it. -/
inductive Writes : Piece → List Token → Prop
  | line {s : Stmt} {ts : List Token} : s.isLine = true → ts ≠ [] → Flat ts →
      Writes (.statement s) (ts ++ [.newline])
  | bodied {s : Stmt} {body : List Stmt} {header ts : List Token} : Header s body header →
      Writes (.body body) ts →
      Writes (.statement s)
        (header ++ (.word .doWord :: .newline :: (ts ++ [.word .endWord, .newline])))
  | chain {s : Stmt} {ts : List Token} : Writes (.branches s) ts →
      Writes (.statement s) (.word .ifWord :: ts)
  | last {condition : Expr} {onTrue : List Stmt} {header ts : List Token} (pos : Position) :
      Spells Breaks condition header → Writes (.body onTrue) ts →
      Writes (.branches (.conditional condition onTrue none pos))
        (header ++ (.word .doWord :: .newline :: (ts ++ [.word .endWord, .newline])))
  | otherwise {condition : Expr} {onTrue onFalse : List Stmt} {header ts close us : List Token}
      (pos : Position) : Spells Breaks condition header → Writes (.body onTrue) ts →
      Parts close → Writes (.body onFalse) us →
      Writes (.branches (.conditional condition onTrue (some onFalse) pos))
        (header ++ (.word .doWord :: .newline :: (ts ++ (close ++ (.word .elseWord ::
          (.word .doWord :: .newline :: (us ++ [.word .endWord, .newline])))))))
  | further {condition : Expr} {onTrue : List Stmt} {chained : Stmt}
      {header ts close us : List Token} (pos : Position) : Spells Breaks condition header →
      Writes (.body onTrue) ts → Parts close → Writes (.branches chained) us →
      Writes (.branches (.conditional condition onTrue (some [chained]) pos))
        (header ++ (.word .doWord :: .newline :: (ts ++ (close ++ (.word .elseWord ::
          (.word .ifWord :: us))))))
  | none {breaks : List Token} : Breaks breaks → Writes (.body []) breaks
  | next {s : Stmt} {rest : List Stmt} {breaks ts us : List Token} : Breaks breaks →
      Writes (.statement s) ts → Writes (.body rest) us →
      Writes (.body (s :: rest)) (breaks ++ (ts ++ us))

theorem Writes.two_le_length {made : Stmt} {ts : List Token}
    (written : Writes (.statement made) ts) : 2 ≤ ts.length := by
  cases written with
  | @line _ ts _ nonempty _ =>
      have some : 0 < ts.length := List.length_pos_iff.mpr nonempty
      rw [List.length_append, List.length_singleton]
      omega
  | bodied =>
      simp only [List.length_append, List.length_cons]
      omega
  | chain branches =>
      cases branches <;> simp only [List.length_append, List.length_cons] <;> omega

theorem Writes.andBody {s : Stmt} {rest : List Stmt} {ts us : List Token}
    (first : Writes (.statement s) ts) (others : Writes (.body rest) us) :
    Writes (.body (s :: rest)) (ts ++ us) :=
  @Writes.next s rest [] ts us breaks_nil first others

theorem Writes.behindBreak {program : List Stmt} {ts : List Token}
    (written : Writes (.body program) ts) : Writes (.body program) (.newline :: ts) := by
  cases written with
  | none breaks => exact .none (List.forall_mem_cons.mpr ⟨rfl, breaks⟩)
  | next breaks first rest => exact .next (List.forall_mem_cons.mpr ⟨rfl, breaks⟩) first rest

/-! ### Counting the words of blocks -/

/-- How often an `end` stands directly in front of an `else`. -/
def endsBeforeElse : List Token → Nat
  | [] => 0
  | t :: rest =>
    (if t = .word .endWord ∧ rest.head? = some (.word .elseWord) then 1 else 0) +
      endsBeforeElse rest

/-- Each `do` has an `end` or an `else` of its own, but for those in front of an `else`. The last
token is no `end`, so that nothing behind can put an `else` there. -/
structure Balanced (ts : List Token) : Prop where
  count : ts.count (.word .endWord) + ts.count (.word .elseWord) =
    ts.count (.word .doWord) + endsBeforeElse ts
  unended : ts.getLast? ≠ some (.word .endWord)

section Balance

variable {ts us : List Token}

theorem endsBeforeElse_append (unended : ts.getLast? ≠ some (.word .endWord)) :
    endsBeforeElse (ts ++ us) = endsBeforeElse ts + endsBeforeElse us := by
  induction ts with
  | nil => exact (Nat.zero_add _).symm
  | cons t rest ih =>
      cases rest with
      | nil =>
          have other : t ≠ .word .endWord := fun same => unended (congrArg some same)
          rw [List.singleton_append, endsBeforeElse, endsBeforeElse, if_neg fun h => other h.1,
            if_neg fun h => other h.1, endsBeforeElse]
      | cons u rest =>
          rw [List.getLast?_cons_cons] at unended
          rw [List.cons_append, endsBeforeElse, endsBeforeElse, ih unended, Nat.add_assoc]
          rfl

theorem endsBeforeElse_append_newline : endsBeforeElse (ts ++ [.newline]) = endsBeforeElse ts := by
  induction ts with
  | nil => rfl
  | cons t rest ih =>
      rw [List.cons_append, endsBeforeElse, endsBeforeElse, ih]
      cases rest with
      | nil => simp
      | cons u rest => rfl

/-- The count is zero if no `end` stands directly in front of an `else`. -/
theorem endsBeforeElse_eq_zero_iff :
    endsBeforeElse ts = 0 ↔ ¬ [.word .endWord, .word .elseWord] <:+: ts := by
  induction ts with
  | nil => simp [endsBeforeElse]
  | cons t rest ih =>
      rw [endsBeforeElse, Nat.add_eq_zero_iff, ih, List.infix_cons_iff, not_or]
      refine and_congr_left fun _ => ?_
      rw [List.cons_prefix_cons]
      cases rest with
      | nil => simp
      | cons u rest => simp [eq_comm]

theorem Flat.count_eq_zero {k : Keyword} (h : Flat ts)
    (counts : (Token.word k).isBlockWord = true) : ts.count (.word k) = 0 := by
  refine List.count_eq_zero.mpr fun member => ?_
  rw [h _ member] at counts
  cases counts

theorem Flat.balanced (h : Flat ts) : Balanced ts := by
  have none : endsBeforeElse ts = 0 := by
    refine endsBeforeElse_eq_zero_iff.mpr fun inside => ?_
    have plain := h (.word .endWord) (inside.mem List.mem_cons_self)
    cases plain
  refine ⟨?_, fun last => ?_⟩
  · rw [h.count_eq_zero rfl, h.count_eq_zero rfl, h.count_eq_zero rfl, none]
  · have plain := h (.word .endWord) (List.mem_of_getLast? last)
    cases plain

theorem Balanced.append (h : Balanced ts) (h' : Balanced us) : Balanced (ts ++ us) := by
  refine ⟨?_, ?_⟩
  · rw [endsBeforeElse_append h.unended, List.count_append, List.count_append, List.count_append]
    have first := h.count
    have second := h'.count
    omega
  · rw [List.getLast?_append]
    cases last : us.getLast? with
    | none => exact h.unended
    | some t =>
        rw [Option.some_or, ← last]
        exact h'.unended

theorem unended_behind {t : Token} (front : List Token) (other : t ≠ .word .endWord)
    (unended : us.getLast? ≠ some (.word .endWord)) :
    (front ++ t :: us).getLast? ≠ some (.word .endWord) := by
  rw [List.getLast?_append, List.getLast?_cons, Option.some_or]
  cases last : us.getLast? with
  | none => exact fun same => other (Option.some.inj same)
  | some u => exact last ▸ unended

theorem Balanced.enclosed (h : Balanced ts) :
    Balanced (.word .doWord :: .newline :: (ts ++ [.word .endWord, .newline])) := by
  refine ⟨?_, ?_⟩
  · have count := h.count
    simp [endsBeforeElse, endsBeforeElse_append h.unended]
    omega
  · have last := @unended_behind [] .newline
      (.word .doWord :: .newline :: (ts ++ [.word .endWord])) (by decide) (by decide)
    simpa using last

theorem Balanced.parted {close : List Token} (h : Balanced ts) (parts : Parts close)
    (h' : Balanced us) :
    Balanced (.word .doWord :: .newline :: (ts ++ (close ++ (.word .elseWord :: us)))) := by
  refine ⟨?_, ?_⟩
  · have first := h.count
    have second := h'.count
    rcases parts with rfl | rfl <;> simp [endsBeforeElse, endsBeforeElse_append h.unended] <;> omega
  · have last := unended_behind (.word .doWord :: .newline :: (ts ++ close))
      (show Token.word .elseWord ≠ .word .endWord by decide) h'.unended
    simpa using last

theorem Header.flat {s : Stmt} {body : List Stmt} (h : Header s body ts) : Flat ts := by
  cases h with
  | repeatTimes _ _ count => exact ((Spells.flat _ count).append (flat_nil.cons rfl)).cons rfl
  | forEach element _ _ iterable =>
      exact ((((Spells.flat _ iterable).cons rfl).cons rfl).cons rfl).cons rfl
  | block => exact flat_nil
  | function name _ _ params =>
      refine Flat.cons (Flat.cons ?_ rfl) rfl
      cases params with
      | none => exact flat_nil
      | some names =>
          refine (names.flat ?_ fun param _ us written => ?_).cons rfl
          · rintro _ rfl
            exact flat_nil
          · rw [written]
            exact flat_nil.cons rfl

/-- Whatever is written is balanced. -/
theorem Writes.balanced {piece : Piece} (h : Writes piece ts) : Balanced ts := by
  have newline : Balanced [.newline] := (flat_nil.cons rfl).balanced
  induction h with
  | line _ _ flat => exact flat.balanced.append newline
  | bodied header _ body => exact header.flat.balanced.append body.enclosed
  | chain _ branches => exact Balanced.append (flat_nil.cons rfl).balanced branches
  | last pos condition _ onTrue => exact (Spells.flat _ condition).balanced.append onTrue.enclosed
  | otherwise pos condition _ parts _ onTrue onFalse =>
      exact (Spells.flat _ condition).balanced.append (onTrue.parted parts onFalse.enclosed)
  | further pos condition _ parts _ onTrue chained =>
      have behind := Balanced.append (flat_nil.cons (t := .word .ifWord) rfl).balanced chained
      exact (Spells.flat _ condition).balanced.append (onTrue.parted parts behind)
  | none breaks => exact breaks.flat.balanced
  | next breaks _ _ first rest => exact breaks.flat.balanced.append (first.append rest)

end Balance

end Walkthrough.JikiScript
