import Rowmap.Proofs.Sql.Outline

/-!
# Lexemes

How PostgreSQL cuts a text into lexemes, with standard-conforming strings: words, numbers,
placeholders, quoted names, string constants in all their forms, comments, and any other character
by itself. What PostgreSQL refuses is cut somewhere, and a constant in several parts with line
breaks between them is as many lexemes as it has parts.

A lexeme is what was written, so the lexemes of a text put together are the text. Reading goes from
left to right and knows of the lexeme in progress only what decides whether the next character goes
on with it. So a lexeme can be exchanged for another one that is read to the same point, and nothing
else changes in how a text is cut.
-/

namespace Rowmap.Sql

/-! ## Reading a text -/

/-- How far the lexeme in progress has been read: whether it has ended, so that nothing could go on
with it, or else what it is as yet. A dollar sign may start a placeholder or the tag of a constant,
which ends where the same tag stands again. Comments nest. -/
inductive Lexer where
  | ended | word | escape | number
  | dollar | placeholder | tag (name : List Char)
  | quoted (tag : List Char) | closing (tag rest : List Char)
  | literal | literalMark | escaped | backslash | escapedMark | name | nameMark
  | dash | remark | slash
  | comment (depth : Nat) | commentStar (depth : Nat) | commentSlash (depth : Nat)
  deriving DecidableEq, Repr

/-- Whether a word can start with a character. -/
def isLetter (c : Char) : Bool := c.isAlpha || c = '_' || 128 ≤ c.toNat

namespace Lexer

/-- Behind the first character of a lexeme. -/
def first (c : Char) : Lexer :=
  if c = '\'' then literal
  else if c = '"' then name
  else if c = '$' then dollar
  else if c = '-' then dash
  else if c = '/' then slash
  else if c = 'e' || c = 'E' then escape
  else if isLetter c then word
  else if c.isDigit then number
  else ended

/-- Behind one more character, if that goes on with the lexeme in progress. -/
def next? : Lexer → Char → Option Lexer
  | ended, _ => none
  | word, c => if isWord c || c = '$' then some word else none
  | escape, c => if c = '\'' then some escaped else if isWord c || c = '$' then some word else none
  | number, c => if isWord c || c = '.' then some number else none
  | dollar, c =>
    if c.isDigit then some placeholder
    else if c = '$' then some (quoted [])
    else if isLetter c then some (tag [c])
    else none
  | placeholder, c => if c.isDigit then some placeholder else none
  | tag t, c =>
    if c = '$' then some (quoted t) else if isWord c then some (tag (t ++ [c])) else none
  | quoted t, c => some (if c = '$' then closing t t else quoted t)
  | closing _ [], '$' => some ended
  | closing t (r :: rest), c =>
    some (if c = r then closing t rest else if c = '$' then closing t t else quoted t)
  | closing t [], _ => some (quoted t)
  | literal, c => some (if c = '\'' then literalMark else literal)
  | literalMark, c => if c = '\'' then some literal else none
  | escaped, c => some (if c = '\'' then escapedMark else if c = '\\' then backslash else escaped)
  | backslash, _ => some escaped
  | escapedMark, c => if c = '\'' then some escaped else none
  | name, c => some (if c = '"' then nameMark else name)
  | nameMark, c => if c = '"' then some name else none
  | dash, c => if c = '-' then some remark else none
  | remark, c => if c = '\n' || c = '\r' then none else some remark
  | slash, c => if c = '*' then some (comment 0) else none
  | comment d, c =>
    some (if c = '*' then commentStar d else if c = '/' then commentSlash d else comment d)
  | commentStar d, c =>
    some (if c = '/' then if d = 0 then ended else comment (d - 1)
      else if c = '*' then commentStar d
      else comment d)
  | commentSlash d, c =>
    some (if c = '*' then comment (d + 1) else if c = '/' then commentSlash d else comment d)

/-- Behind several more characters that all go on with the lexeme in progress. -/
def run? : Lexer → List Char → Option Lexer
  | m, [] => some m
  | m, c :: cs => (m.next? c).bind fun m ↦ m.run? cs

/-- What goes on with the lexeme in progress, and the lexemes after it. -/
def read : Lexer → List Char → List Char × List (List Char)
  | _, [] => ([], [])
  | m, c :: cs =>
    match m.next? c with
    | some m =>
      let (rest, ls) := m.read cs
      (c :: rest, ls)
    | none =>
      let (rest, ls) := (first c).read cs
      ([], (c :: rest) :: ls)

end Lexer

/-- The lexemes of a text in characters. -/
def lexemes (cs : List Char) : List (List Char) := (Lexer.ended.read cs).2

/-- Whether a character is a blank between lexemes. -/
def isBlank (c : Char) : Bool := [' ', '\t', '\n', '\r', '\x0b', '\x0c'].contains c

def isComment : List Char → Bool
  | '-' :: '-' :: _ | '/' :: '*' :: _ => true
  | _ => false

/-- Whether a lexeme says nothing: a blank or a comment. -/
def isGap (l : List Char) : Bool := l.all isBlank || isComment l

/-- The lexemes of a text that say something. -/
def tokens (cs : List Char) : List (List Char) := (lexemes cs).filter (!isGap ·)

/-! ## Lexemes -/

namespace Lexer

variable {m m' : Lexer} {c : Char} {cs ds : List Char}

theorem read_cons_some (h : m.next? c = some m') (cs : List Char) :
    m.read (c :: cs) = (c :: (m'.read cs).1, (m'.read cs).2) := by
  rw [read, h]

theorem read_cons_none (h : m.next? c = none) (cs : List Char) :
    m.read (c :: cs) = ([], (c :: ((first c).read cs).1) :: ((first c).read cs).2) := by
  rw [read, h]

theorem run?_cons (h : m.next? c = some m') (cs : List Char) :
    m.run? (c :: cs) = m'.run? cs := by
  rw [run?, h, Option.bind_some]

theorem run?_append (m : Lexer) (cs ds : List Char) :
    m.run? (cs ++ ds) = (m.run? cs).bind fun m ↦ m.run? ds := by
  induction cs generalizing m with
  | nil => rfl
  | cons c cs ih =>
    rw [List.cons_append, run?, run?, Option.bind_assoc]
    simp only [ih]

/-- A lexeme that goes on through a text goes on with what follows. -/
theorem read_append (h : m.run? cs = some m') (ds : List Char) :
    m.read (cs ++ ds) = (cs ++ (m'.read ds).1, (m'.read ds).2) := by
  induction cs generalizing m with
  | nil =>
    obtain rfl := Option.some.inj h
    rfl
  | cons c cs ih =>
    obtain ⟨m₁, hm₁, hrun⟩ := Option.bind_eq_some_iff.mp h
    rw [List.cons_append, read_cons_some hm₁, ih hrun, List.cons_append]

/-- What the lexeme in progress does not go on with is cut as if it stood alone. -/
theorem read_of_stops (h : cs.head?.bind m.next? = none) : m.read cs = ([], lexemes cs) := by
  cases cs with
  | nil => rfl
  | cons c cs => rw [lexemes, read_cons_none (m := ended) rfl, read_cons_none h]

/-- Nothing is lost. -/
theorem flatten_read (m : Lexer) (cs : List Char) :
    (m.read cs).1 ++ (m.read cs).2.flatten = cs := by
  induction cs generalizing m with
  | nil => rfl
  | cons c cs ih =>
    cases hnext : m.next? c with
    | some m' => rw [read_cons_some hnext, List.cons_append, ih]
    | none => rw [read_cons_none hnext, List.nil_append, List.flatten_cons, List.cons_append, ih]

/-- Every lexeme goes on from its first character to its end. -/
theorem run?_of_mem_read {l : List Char} (h : l ∈ (m.read cs).2) :
    ∃ c rest m', l = c :: rest ∧ (first c).run? rest = some m' := by
  -- what goes on with the lexeme in progress does so to its end as well
  have hall : ∀ cs m, (∃ m', run? m (m.read cs).1 = some m') ∧
      ∀ l ∈ (m.read cs).2, ∃ c rest m', l = c :: rest ∧ (first c).run? rest = some m' := by
    intro cs
    induction cs with
    | nil => exact fun m ↦ ⟨⟨m, rfl⟩, by simp [read]⟩
    | cons c cs ih =>
      intro m
      cases hnext : m.next? c with
      | some m' =>
        rw [read_cons_some hnext, run?_cons hnext]
        exact ih m'
      | none =>
        rw [read_cons_none hnext]
        obtain ⟨⟨m', hrun⟩, hlexemes⟩ := ih (first c)
        exact ⟨⟨m, rfl⟩, List.forall_mem_cons.mpr ⟨⟨c, _, m', rfl, hrun⟩, hlexemes⟩⟩
  exact (hall cs m).2 l h

/-- Whether a lexeme is read to the same point as another with the same first character. -/
def Fits (l l' : List Char) : Prop :=
  ∃ c rest rest' m, l = c :: rest ∧ l' = c :: rest' ∧ (first c).run? rest = some m ∧
    (first c).run? rest' = some m

theorem Fits.of_mem_read {l : List Char} (h : l ∈ (m.read cs).2) : Fits l l := by
  obtain ⟨c, rest, m', rfl, hrun⟩ := run?_of_mem_read h
  exact ⟨c, rest, rest, m', rfl, rfl, hrun, hrun⟩

/-- **Lexemes can be exchanged** for others that fit, and the text is cut as before. -/
theorem read_exchanged {f : List Char → List Char} (h : ∀ l ∈ (m.read cs).2, Fits l (f l)) :
    m.read ((m.read cs).1 ++ ((m.read cs).2.map f).flatten) =
      ((m.read cs).1, (m.read cs).2.map f) := by
  induction cs generalizing m with
  | nil => rfl
  | cons c cs ih =>
    cases hnext : m.next? c with
    | some m' =>
      rw [read_cons_some hnext] at h ⊢
      dsimp only at h ⊢
      rw [List.cons_append, read_cons_some hnext, ih h]
    | none =>
      rw [read_cons_none hnext] at h ⊢
      dsimp only at h ⊢
      rw [List.forall_mem_cons] at h
      have hread := ih h.2
      obtain ⟨c', rest, rest', m', hl, hl', hrun, hrun'⟩ := h.1
      obtain ⟨rfl, hrest⟩ := List.cons.inj hl
      -- the lexeme ends where its counterpart does, at the same point
      rw [hrest, read_append hrun, Prod.mk.injEq, List.append_right_eq_self] at hread
      rw [List.nil_append, List.map_cons, List.flatten_cons, hl', List.cons_append,
        read_cons_none hnext, read_append hrun', hread.1, hread.2, List.append_nil]

end Lexer

theorem read_ended (cs : List Char) : Lexer.ended.read cs = ([], lexemes cs) :=
  Lexer.read_of_stops (by cases cs <;> rfl)

@[simp] theorem lexemes_nil : lexemes [] = [] := rfl

/-- **The lexemes put together are the text.** -/
theorem flatten_lexemes (cs : List Char) : (lexemes cs).flatten = cs := by
  have hflatten := Lexer.ended.flatten_read cs
  rwa [read_ended, List.nil_append] at hflatten

/-- A text that goes on from its first character to its end, and not beyond, is one lexeme. -/
theorem lexemes_cons_append {c : Char} {rest cs : List Char} {m : Lexer}
    (hrun : (Lexer.first c).run? rest = some m) (hstops : cs.head?.bind m.next? = none) :
    lexemes (c :: (rest ++ cs)) = (c :: rest) :: lexemes cs := by
  rw [lexemes, Lexer.read_cons_none rfl, Lexer.read_append hrun, Lexer.read_of_stops hstops,
    List.append_nil]

theorem tokens_of_lexemes {l cs : List Char} (h : lexemes (l ++ cs) = l :: lexemes cs)
    (hl : isGap l = false) : tokens (l ++ cs) = l :: tokens cs := by
  rw [tokens, h, List.filter_cons_of_pos (by rw [hl]; rfl), tokens]

/-- Lexemes that are exchanged for others that fit are those of the text put together of them. -/
theorem lexemes_flatten_map {f : List Char → List Char} {cs : List Char}
    (h : ∀ l ∈ lexemes cs, Lexer.Fits l (f l)) :
    lexemes ((lexemes cs).map f).flatten = (lexemes cs).map f := by
  have hread := Lexer.read_exchanged h
  rw [read_ended cs, List.nil_append] at hread
  exact congrArg Prod.snd hread

end Rowmap.Sql
