/-
  The declarations of a shader's block. The keyword loop is said as a sequence of turns
  (`Span.turn`), each of which passes something over or takes a declaration in, and reading the
  block is taking in its declarations one after the other (`readBody_turn`, `readBody_fold`).

  Without places, a turn is a function of the characters of the region (`turn_unplaced`), and one
  that leaves something does not depend on what follows later (`turnOf_append`).
-/
import SurfaceShading.Proofs.Grammar.Unplaced
import SurfaceShading.Proofs.Grammar.Written.Passes
import SurfaceShading.Proofs.Outcome
import SurfaceShading.Shader.Grammar.Reader

namespace SurfaceShading.Grammar

open Bytewise (next_cases quoted_cases block_cases triviaLength_le)

/-! ## The turns of the loop -/

/-- A declaration of a shader: what is read of it, and the inside of its block. -/
inductive Declaration (R : Type) where
  | queue (queue : RenderQueue)
  | properties (block : R) (properties : List Property)
  | model (block : R)
  | pass (block : R) (pass : PassDraft)

/-- What one turn of the loop does with a region: nothing is left, something is malformed, or it
goes on behind what it passed over or a declaration that it took in. -/
inductive Turn (R : Type) where
  | finished
  | failed
  | goesOn (declaration : Option (Declaration R)) (rest : R)

/-- One turn of the keyword loop. -/
def Span.turn (s : Span) : Turn Span :=
  match s.next with
  | .finished => .finished
  | .broken _ => .failed
  | .string rest => .goesOn none rest
  | .other _ _ rest => .goesOn none rest
  | .name position text rest =>
    match text with
    | "RenderQueue" =>
      match readQueue position rest with
      | .error _ => .failed
      | .ok (queue, after) => .goesOn (some (.queue queue)) after
    | "Properties" =>
      match rest.val.block with
      | .error _ => .failed
      | .ok block =>
        match readProperties block.body with
        | .error _ => .failed
        | .ok properties => .goesOn (some (.properties block.body properties)) block.after
    | "ShadingModel" =>
      match rest.val.block with
      | .error _ => .failed
      | .ok block => .goesOn (some (.model block.body)) block.after
    | "Pass" =>
      match rest.val.block with
      | .error _ => .failed
      | .ok block =>
        match readPass block.body with
        | .error _ => .failed
        | .ok pass => .goesOn (some (.pass block.body pass)) block.after
    | _ => .goesOn none rest

/-- Takes in a declaration. -/
def Draft.add (draft : Draft) : Declaration Span → Draft
  | .queue queue => { draft with queue := some queue }
  | .properties _ properties => { draft with properties := draft.properties ++ properties }
  | .model block => draft.addModel block
  | .pass _ pass => { draft with passes := draft.passes ++ [pass] }

/-- Reading a block goes on from turn to turn. -/
theorem readBody_turn (draft : Draft) (s : Span) :
    match s.turn with
    | .finished => readBody draft s = (draft, none)
    | .failed => ∃ failure, readBody draft s = (draft, some failure)
    | .goesOn declaration rest => rest.size < s.size ∧
        readBody draft s = readBody (declaration.elim draft draft.add) rest := by
  rw [readBody.eq_def draft s]
  unfold Span.turn
  cases s.next with
  | finished => rfl
  | broken failure => exact ⟨failure, rfl⟩
  | string rest => exact ⟨rest.property, rfl⟩
  | other _ _ rest => exact ⟨rest.property, rfl⟩
  | name position text rest =>
    have shorter := rest.property
    by_cases isQueue : text = "RenderQueue"
    · subst isQueue
      dsimp only
      cases readQueue position rest with
      | error failure => exact ⟨failure, rfl⟩
      | ok found => exact ⟨Nat.lt_trans found.2.property shorter, rfl⟩
    by_cases isProperties : text = "Properties"
    · subst isProperties
      dsimp only
      cases rest.val.block with
      | error failure => exact ⟨failure, rfl⟩
      | ok block =>
        dsimp only
        cases readProperties block.body with
        | error failure => exact ⟨failure, rfl⟩
        | ok properties => exact ⟨Nat.lt_trans block.after.property shorter, rfl⟩
    by_cases isModel : text = "ShadingModel"
    · subst isModel
      dsimp only
      cases rest.val.block with
      | error failure => exact ⟨failure, rfl⟩
      | ok block => exact ⟨Nat.lt_trans block.after.property shorter, rfl⟩
    by_cases isPass : text = "Pass"
    · subst isPass
      dsimp only
      cases rest.val.block with
      | error failure => exact ⟨failure, rfl⟩
      | ok block =>
        dsimp only
        cases readPass block.body with
        | error failure => exact ⟨failure, rfl⟩
        | ok pass => exact ⟨Nat.lt_trans block.after.property shorter, rfl⟩
    · dsimp only
      simp only
      exact ⟨shorter, rfl⟩

/-! ## Readers without places -/

/-- Two results of which the same is kept either both fail or give what is kept alike. -/
theorem except_alike {ε α β γ : Type} {x : Except ε α} {y : Except ε β} {f : α → γ}
    {g : β → γ} (same : x.toOption.map f = y.toOption.map g) :
    (∃ e e', x = .error e ∧ y = .error e') ∨ ∃ a b, x = .ok a ∧ y = .ok b ∧ f a = g b := by
  cases x with
  | error e =>
    cases y with
    | error e' => exact .inl ⟨e, e', rfl, rfl⟩
    | ok b => cases same
  | ok a =>
    cases y with
    | error e' => cases same
    | ok b => exact .inr ⟨a, b, rfl, rfl, Option.some.inj same⟩

theorem toOption_bind {ε α β : Type} (x : Except ε α) (f : α → Except ε β) :
    (x >>= f).toOption = x.toOption.bind fun a => (f a).toOption := by
  cases x <;> rfl

/-! A token is told from its piece but for its place. -/

section

variable {n : Nat} {t : Token n} {r : List Char}

theorem finished_of_piece (is : t.piece = .finished) : t = .finished := by
  cases t with
  | finished => rfl
  | _ => cases is

theorem broken_of_piece (is : t.piece = .broken) : ∃ failure, t = .broken failure := by
  cases t with
  | broken failure => exact ⟨failure, rfl⟩
  | _ => cases is

theorem string_of_piece (is : t.piece = .string r) :
    ∃ rest, t = .string rest ∧ rest.val.chars = r := by
  cases t with
  | string rest => exact ⟨rest, rfl, Piece.string.inj is⟩
  | _ => cases is

theorem other_of_piece {c : Char} (is : t.piece = .other c r) :
    ∃ position rest, t = .other position c rest ∧ rest.val.chars = r := by
  cases t with
  | other position c' rest =>
    obtain ⟨rfl, same⟩ := Piece.other.inj is
    exact ⟨position, rest, rfl, same⟩
  | _ => cases is

theorem name_of_piece {text : String} (is : t.piece = .name text r) :
    ∃ position rest, t = .name position text rest ∧ rest.val.chars = r := by
  cases t with
  | name position text' rest =>
    obtain ⟨rfl, same⟩ := Piece.name.inj is
    exact ⟨position, rest, rfl, same⟩
  | _ => cases is

end

variable {s s' : Span}

theorem quoted_congr (same : s.chars = s'.chars) :
    (s.quoted.toOption.map fun found => (found.1, found.2.val.chars)) =
      s'.quoted.toOption.map fun found => (found.1, found.2.val.chars) := by
  rw [quoted_unplaced, quoted_unplaced, same]

/-- The queue that the string at the start of a text names, and the rest of the text. -/
def queueOf (cs : List Char) : Option (RenderQueue × List Char) :=
  (quoteOf cs).bind fun (text, rest) =>
    (RenderQueue.ofName? (String.ofList text)).map fun queue => (queue, rest)

theorem readQueue_unplaced (position : Nat) (s : Span) :
    ((readQueue position s).toOption.map fun found => (found.1, found.2.val.chars)) =
      queueOf s.chars := by
  unfold queueOf readQueue
  rw [← quoted_unplaced]
  cases s.quoted with
  | error failure => rfl
  | ok found =>
    simp only [bind, Except.bind, Except.toOption, Option.map_some, Option.bind_some]
    cases RenderQueue.ofName? (String.ofList found.1) <;> rfl

theorem readHeader_congr {header : Header} (same : s.chars = s'.chars) :
    (readHeader header s).toOption = (readHeader header s').toOption := by
  induction size : s.size using Nat.strong_induction_on generalizing header s s' with
  | _ size ih =>
    subst size
    have piece : s'.next.piece = s.next.piece := by rw [next_unplaced, next_unplaced, same]
    rw [readHeader.eq_def header s, readHeader.eq_def header s']
    cases next : s.next with
    | finished =>
      rw [next] at piece
      rw [finished_of_piece piece]
    | broken failure =>
      rw [next] at piece
      obtain ⟨failure', next'⟩ := broken_of_piece piece
      rw [next']
      rfl
    | string rest =>
      rw [next] at piece
      obtain ⟨rest', next', same⟩ := string_of_piece piece
      rw [next']
      exact ih _ rest.property same.symm rfl
    | other position c rest =>
      rw [next] at piece
      obtain ⟨_, rest', next', same⟩ := other_of_piece piece
      rw [next']
      exact ih _ rest.property same.symm rfl
    | name position text rest =>
      rw [next] at piece
      obtain ⟨position', rest', next', same⟩ := name_of_piece piece
      rw [next']
      dsimp only
      split
      · rcases except_alike (quoted_congr same.symm) with ⟨_, _, is, is'⟩ |
          ⟨⟨name, after⟩, ⟨name', after'⟩, is, is', both⟩
        · rw [is, is']
          rfl
        · obtain ⟨rfl, same⟩ := Prod.mk.inj both
          rw [is, is']
          exact ih _ (Nat.lt_trans after.property rest.property) same rfl
      · have read := (readQueue_unplaced position rest).trans
          ((congrArg queueOf same.symm).trans (readQueue_unplaced position' rest').symm)
        rcases except_alike read with ⟨_, _, is, is'⟩ |
          ⟨⟨queue, after⟩, ⟨queue', after'⟩, is, is', both⟩
        · rw [is, is']
          rfl
        · obtain ⟨rfl, same⟩ := Prod.mk.inj both
          rw [is, is']
          exact ih _ (Nat.lt_trans after.property rest.property) same rfl
      · exact ih _ rest.property same.symm rfl

theorem readProgram_congr {lines lines' : List Span}
    (same : lines.map Span.chars = lines'.map Span.chars) :
    (readProgram lines).toOption = (readProgram lines').toOption := by
  induction lines generalizing lines' with
  | nil =>
    cases lines' with
    | nil => rfl
    | cons line' lines' => cases same
  | cons line lines ih =>
    cases lines' with
    | nil => cases same
    | cons line' lines' =>
      obtain ⟨here, later⟩ := List.cons.inj same
      have rest := ih later
      rw [readProgram, readProgram, here]
      split
      · rw [toOption_bind, toOption_bind, rest]
      · rfl
      · rw [toOption_bind, toOption_bind, rest]
      · rw [toOption_bind, toOption_bind, rest]

theorem lines_chars (s : Span) : s.lines.map Span.chars = Text.splitAtChar '\n' s.chars :=
  chars_placed _ _

theorem readDeclarations_congr {seen : List Property} {lines lines' : List Span}
    (same : lines.map Span.chars = lines'.map Span.chars) :
    (readDeclarations seen lines).toOption = (readDeclarations seen lines').toOption := by
  induction lines generalizing seen lines' with
  | nil =>
    cases lines' with
    | nil => rfl
    | cons line' lines' => cases same
  | cons line lines ih =>
    cases lines' with
    | nil => cases same
    | cons line' lines' =>
      obtain ⟨here, later⟩ := List.cons.inj same
      rw [readDeclarations, readDeclarations, here]
      split
      · exact ih later
      · rfl
      · split
        · rfl
        · exact ih later

theorem readProperties_congr (same : s.chars = s'.chars) :
    (readProperties s).toOption = (readProperties s').toOption :=
  readDeclarations_congr (by rw [lines_chars, lines_chars, same])

theorem readPass_congr (same : s.chars = s'.chars) :
    (readPass s).toOption = (readPass s').toOption := by
  unfold readPass
  rw [same]
  split
  · rfl
  · next start _ =>
    have tail : (s.drop (start + programStart.length)).chars =
        (s'.drop (start + programStart.length)).chars := by
      rw [chars_drop, chars_drop, same]
    dsimp only
    rw [tail]
    split
    · rfl
    · next length _ =>
      have header : (readHeader ⟨none, none⟩ (s.take start)).toOption =
          (readHeader ⟨none, none⟩ (s'.take start)).toOption :=
        readHeader_congr (congrArg (List.take start) same)
      have lines : ((s.drop (start + programStart.length)).take length).lines.map Span.chars =
          ((s'.drop (start + programStart.length)).take length).lines.map Span.chars := by
        rw [lines_chars, lines_chars]
        exact congrArg (fun cs => Text.splitAtChar '\n' (cs.take length)) tail
      rw [toOption_bind, toOption_bind, header]
      congr 1
      funext header
      rw [toOption_bind, toOption_bind, readProgram_congr lines]
      congr 1
      funext program
      split <;> rfl

/-! ## Turns without places -/

/-- A declaration with another kind of regions. -/
def Declaration.map {R R' : Type} (f : R → R') : Declaration R → Declaration R'
  | .queue named => .queue named
  | .properties block listed => .properties (f block) listed
  | .model block => .model (f block)
  | .pass block read => .pass (f block) read

def Turn.map {R R' : Type} (f : R → R') : Turn R → Turn R'
  | .finished => .finished
  | .failed => .failed
  | .goesOn declaration rest => .goesOn (declaration.map (Declaration.map f)) (f rest)

/-- The block behind a keyword, which holds a declaration if it can be read. -/
def declareOf (read : List Char → Option (Declaration (List Char))) (cs : List Char) :
    Turn (List Char) :=
  match blockOf cs with
  | none => .failed
  | some (body, rest) =>
    match read body with
    | none => .failed
    | some declaration => .goesOn (some declaration) rest

/-- One turn of the keyword loop on the characters of a region. -/
def turnOf (cs : List Char) : Turn (List Char) :=
  match pieceOf cs with
  | .finished => .finished
  | .broken => .failed
  | .string rest => .goesOn none rest
  | .other _ rest => .goesOn none rest
  | .name text rest =>
    match text with
    | "RenderQueue" =>
      match queueOf rest with
      | none => .failed
      | some (queue, after) => .goesOn (some (.queue queue)) after
    | "Properties" =>
      declareOf (fun body => (readProperties (.whole body)).toOption.map (.properties body)) rest
    | "ShadingModel" => declareOf (fun body => some (.model body)) rest
    | "Pass" => declareOf (fun body => (readPass (.whole body)).toOption.map (.pass body)) rest
    | _ => .goesOn none rest

theorem turn_unplaced (s : Span) : s.turn.map Span.chars = turnOf s.chars := by
  unfold Span.turn turnOf
  rw [← next_unplaced]
  cases s.next with
  | finished => rfl
  | broken failure => rfl
  | string rest => rfl
  | other _ _ rest => rfl
  | name position text rest =>
    dsimp only [Token.piece]
    by_cases isQueue : text = "RenderQueue"
    · subst isQueue
      rw [← readQueue_unplaced position]
      cases readQueue position rest <;> rfl
    by_cases isProperties : text = "Properties"
    · subst isProperties
      simp only
      rw [declareOf, ← block_unplaced]
      cases rest.val.block with
      | error failure => rfl
      | ok block =>
        have same := @readProperties_congr block.body (.whole block.body.val.chars) rfl
        show Turn.map _ (match readProperties block.body with
          | .error _ => .failed
          | .ok listed => .goesOn (some (.properties block.body.val listed)) block.after.val) =
          (match (readProperties (.whole block.body.val.chars)).toOption.map
            (Declaration.properties block.body.val.chars) with
          | none => .failed
          | some declaration => .goesOn (some declaration) block.after.val.chars)
        rw [← same]
        cases readProperties block.body <;> rfl
    by_cases isModel : text = "ShadingModel"
    · subst isModel
      simp only
      rw [declareOf, ← block_unplaced]
      cases rest.val.block <;> rfl
    by_cases isPass : text = "Pass"
    · subst isPass
      simp only
      rw [declareOf, ← block_unplaced]
      cases rest.val.block with
      | error failure => rfl
      | ok block =>
        have same := @readPass_congr block.body (.whole block.body.val.chars) rfl
        show Turn.map _ (match readPass block.body with
          | .error _ => .failed
          | .ok pass => .goesOn (some (.pass block.body.val pass)) block.after.val) =
          (match (readPass (.whole block.body.val.chars)).toOption.map
            (Declaration.pass block.body.val.chars) with
          | none => .failed
          | some declaration => .goesOn (some declaration) block.after.val.chars)
        rw [← same]
        cases readPass block.body <;> rfl
    · simp only
      rfl

/-- What a turn on characters says about the turn of a region. -/
theorem turn_of_chars {declaration : Option (Declaration (List Char))} {rest : List Char}
    (is : turnOf s.chars = .goesOn declaration rest) :
    ∃ declaration' rest', s.turn = .goesOn declaration' rest' ∧
      declaration'.map (Declaration.map Span.chars) = declaration ∧ rest'.chars = rest := by
  rw [← turn_unplaced] at is
  cases turn : s.turn with
  | finished =>
    rw [turn] at is
    cases is
  | failed =>
    rw [turn] at is
    cases is
  | goesOn declaration' rest' =>
    rw [turn] at is
    obtain ⟨same, rest⟩ := Turn.goesOn.inj is
    exact ⟨declaration', rest', rfl, same, rest⟩

/-! ## What follows later -/

section

variable {u v x r : List Char}

theorem queueOf_append {queue : RenderQueue} (is : queueOf r = some (queue, v ++ x)) :
    ∃ r', r' ≠ [] ∧ r = r' ++ x ∧ ∀ y, queueOf (r' ++ y) = some (queue, v ++ y) := by
  obtain ⟨⟨content, rest⟩, quote, named⟩ := Option.bind_eq_some_iff.1 is
  obtain ⟨queue', known, pair⟩ := Option.map_eq_some_iff.1 named
  obtain ⟨rfl, rfl⟩ := Prod.mk.inj pair
  obtain ⟨text, inside⟩ := quoteOf_eq_some.1 quote
  have split : r = (r.take (triviaLength .code r) ++ '"' :: (content ++ '"' :: v)) ++ x := by
    conv_lhs => rw [← List.take_append_drop (triviaLength .code r) r]
    rw [show r.drop (triviaLength .code r) = _ from text]
    simp
  refine ⟨_, by simp, split, fun y => ?_⟩
  rw [split] at quote
  rw [queueOf, quoteOf_append quote y, Option.bind_some]
  dsimp only
  rw [known]
  rfl

theorem declareOf_append {read : List Char → Option (Declaration (List Char))}
    {declaration : Option (Declaration (List Char))}
    (is : declareOf read r = .goesOn declaration (v ++ x)) :
    ∃ r', r' ≠ [] ∧ r = r' ++ x ∧ ∀ y, declareOf read (r' ++ y) = .goesOn declaration (v ++ y) := by
  unfold declareOf at is ⊢
  split at is
  · cases is
  · next body rest block =>
    split at is
    · cases is
    · next declaration' known =>
      obtain ⟨rfl, rfl⟩ := Turn.goesOn.inj is
      obtain ⟨lead, none, balanced, text⟩ := blockOf_eq_some.1 block
      have split : r = (lead ++ '\x7b' :: (body ++ '\x7d' :: v)) ++ x := by
        rw [text]
        simp
      refine ⟨_, by simp, split, fun y => ?_⟩
      rw [split] at block
      rw [blockOf_append block y]
      dsimp only
      rw [known]

/-- A turn that leaves something does not depend on what follows later. -/
theorem turnOf_append {declaration : Option (Declaration (List Char))}
    (is : turnOf (u ++ x) = .goesOn declaration (v ++ x)) (left : v ≠ []) (y : List Char) :
    turnOf (u ++ y) = .goesOn declaration (v ++ y) := by
  unfold turnOf at is
  split at is
  · cases is
  · cases is
  · next rest piece =>
    obtain ⟨rfl, rfl⟩ := Turn.goesOn.inj is
    rw [turnOf, pieceOf_append (p := .string v) piece left y]
    rfl
  · next c rest piece =>
    obtain ⟨rfl, rfl⟩ := Turn.goesOn.inj is
    rw [turnOf, pieceOf_append (p := .other c v) piece left y]
    rfl
  · next text rest piece =>
    -- A keyword leaves what its declaration is read from, so it does not depend on `x` either.
    have keyword {r : List Char} (nonempty : r ≠ []) (split : rest = r ++ x) :
        pieceOf (u ++ y) = .name text (r ++ y) :=
      pieceOf_append (p := .name text r) (split ▸ piece) nonempty y
    split at is
    · split at is
      · cases is
      · next queued =>
        obtain ⟨rfl, rfl⟩ := Turn.goesOn.inj is
        obtain ⟨r, nonempty, split, later⟩ := queueOf_append queued
        rw [turnOf, keyword nonempty split]
        simp only
        rw [later y]
    · obtain ⟨r, nonempty, split, later⟩ := declareOf_append is
      rw [turnOf, keyword nonempty split]
      exact later y
    · obtain ⟨r, nonempty, split, later⟩ := declareOf_append is
      rw [turnOf, keyword nonempty split]
      exact later y
    · obtain ⟨r, nonempty, split, later⟩ := declareOf_append is
      rw [turnOf, keyword nonempty split]
      exact later y
    · obtain ⟨rfl, rfl⟩ := Turn.goesOn.inj is
      rw [turnOf, keyword left rfl]
      simp only

end

/-! ## Where a turn goes on -/

/-- The region begins with a text, and the other region is what is behind it. -/
structure Span.Leads (s : Span) (lead : List Char) (rest : Span) : Prop where
  chars : s.chars = lead ++ rest.chars
  start : rest.start = s.start + lead.length

theorem Span.Leads.drop {n : Nat} (le : n ≤ s.size) : s.Leads (s.chars.take n) (s.drop n) where
  chars := (List.take_append_drop n s.chars).symm
  start := by
    rw [List.length_take, Nat.min_eq_left (show n ≤ s.chars.length from le)]
    rfl

theorem Span.Leads.trans {lead lead' : List Char} {t r : Span} (leads : s.Leads lead t)
    (leads' : t.Leads lead' r) : s.Leads (lead ++ lead') r where
  chars := by rw [leads.chars, leads'.chars, List.append_assoc]
  start := by rw [leads'.start, leads.start, List.length_append, Nat.add_assoc]

/-- A part of a region stands in the text in which the region stands. -/
theorem Span.Within.part {text : List Char} {t : Span} (within : s.Within text)
    (lead rest : List Char) (chars : s.chars = lead ++ (t.chars ++ rest))
    (start : t.start = s.start + lead.length) : t.Within text := by
  obtain ⟨reach, behind, split⟩ := within
  have left : text.drop t.start = t.chars ++ (rest ++ behind) := by
    rw [start, ← List.drop_drop, ← split, chars, List.append_assoc, List.drop_left' rfl,
      List.append_assoc]
  have length := congrArg List.length split
  rw [List.length_append, chars, List.length_append, List.length_drop] at length
  exact ⟨by omega, rest ++ behind, left.symm⟩

theorem Span.Leads.within {text lead : List Char} {rest : Span} (leads : s.Leads lead rest)
    (within : s.Within text) : rest.Within text :=
  within.part lead [] (by rw [leads.chars, List.append_nil]) leads.start

theorem Span.Within.take {text : List Char} (within : s.Within text) (n : Nat) :
    (s.take n).Within text :=
  within.part [] (s.chars.drop n) (List.take_append_drop n s.chars).symm rfl

theorem leads_skipTrivia (s : Span) : ∃ lead, s.Leads lead s.skipTrivia :=
  ⟨_, .drop (triviaLength_le .code s.chars)⟩

theorem leads_quoted {content : List Char} {after : Shorter s.size}
    (read : s.quoted = .ok (content, after)) : ∃ lead, s.Leads lead after := by
  obtain ⟨lead, leads⟩ := leads_skipTrivia s
  rcases quoted_cases s with ⟨_, is⟩ | ⟨_, _, _, _, _, is⟩ |
    ⟨content', rest, after', chars, _, is, place⟩
  · rw [is] at read
    cases read
  · rw [is] at read
    cases read
  · rw [is] at read
    cases read
    rw [place]
    refine ⟨_, leads.trans (.drop ?_)⟩
    rw [Span.size, chars]
    simp

/-- What is left behind a token. -/
def Token.rest? {n : Nat} : Token n → Option (Shorter n)
  | .finished => none
  | .broken _ => none
  | .string rest => some rest
  | .name _ _ rest => some rest
  | .other _ _ rest => some rest

theorem leads_next {rest : Shorter s.size} (is : s.next.rest? = some rest) :
    ∃ lead, s.Leads lead rest := by
  obtain ⟨lead, leads⟩ := leads_skipTrivia s
  rcases next_cases s with ⟨-, next⟩ |
    ⟨cs, -, ⟨_, -, next⟩ | ⟨content, after, rest', ok, next, same⟩⟩ |
    ⟨c, cs, chars, -, ⟨start, rest', next, place⟩ | ⟨-, rest', next, place⟩⟩
  · rw [next] at is
    cases is
  · rw [next] at is
    cases is
  · rw [next] at is
    cases is
    obtain ⟨lead', leads'⟩ := leads_quoted ok
    rw [same]
    exact ⟨_, leads.trans leads'⟩
  · rw [next] at is
    cases is
    rw [place]
    refine ⟨_, leads.trans (.drop ?_)⟩
    rw [Span.size, chars]
    exact Nat.succ_le_succ (List.takeWhile_prefix _).length_le
  · rw [next] at is
    cases is
    rw [place]
    refine ⟨_, leads.trans (.drop ?_)⟩
    rw [Span.size, chars]
    exact Nat.succ_le_succ (Nat.zero_le _)

/-- Where a block and what is behind it stand. -/
theorem block_place {b : Block s.size} (read : s.block = .ok b) :
    ∃ lead, '\x7b' ∉ lead ∧
      s.chars = lead ++ '\x7b' :: (b.body.val.chars ++ '\x7d' :: b.after.val.chars) ∧
      b.body.val.start = s.start + lead.length + 1 ∧
      b.after.val.start = b.body.val.start + b.body.val.chars.length + 1 := by
  rcases block_cases s with ⟨_, is⟩ | ⟨lead, inside, chars, none, read'⟩
  · rw [is] at read
    cases read
  rcases read' with ⟨_, is⟩ | ⟨n, b', closed, is, body, after⟩
  · rw [is] at read
    cases read
  · obtain rfl := Except.ok.inj (read.symm.trans is)
    have left : (s.drop (lead.length + 1)).chars = inside := by
      rw [chars_drop, chars]
      simp
    obtain ⟨inner, rest, rfl, rfl, -⟩ := closing_eq_some (by decide) closed
    have inner' : b.body.val.chars = inner := by
      rw [body]
      show List.take _ (s.drop _).chars = _
      rw [left, List.take_left' rfl]
    have rest' : b.after.val.chars = rest := by
      rw [after, chars_drop, left, ← List.drop_drop, List.drop_left' rfl]
      rfl
    refine ⟨lead, none, ?_, ?_, ?_⟩
    · rw [inner', rest', chars]
    · rw [body]
      rfl
    · rw [inner', body, after]
      rfl

/-- The inside of a block and what is behind it stand in the text as well. -/
theorem within_block {text : List Char} {b : Block s.size} (within : s.Within text)
    (read : s.block = .ok b) : b.body.val.Within text ∧ b.after.val.Within text := by
  obtain ⟨lead, -, chars, body, after⟩ := block_place read
  constructor
  · refine within.part (lead ++ ['\x7b']) ('\x7d' :: b.after.val.chars) (by rw [chars]; simp) ?_
    rw [body, List.length_append, List.length_singleton, Nat.add_assoc]
  · refine within.part (lead ++ '\x7b' :: (b.body.val.chars ++ ['\x7d'])) []
      (by rw [chars]; simp) ?_
    rw [after, body, List.length_append, List.length_cons, List.length_append,
      List.length_singleton]
    omega

theorem block_balanced {b : Block s.size} (read : s.block = .ok b) :
    Balanced '\x7b' '\x7d' b.body.val.chars := by
  have unplaced := block_unplaced s
  rw [read] at unplaced
  obtain ⟨_, _, balanced, _⟩ := blockOf_eq_some.1 unplaced.symm
  exact balanced

/-- What a block says, as its reader has it. -/
inductive Declares (block : Span) : Declaration Span → Prop where
  | properties {listed : List Property} (read : readProperties block = .ok listed) :
      Declares block (.properties block listed)
  | model : Declares block (.model block)
  | pass {draft : PassDraft} (read : readPass block = .ok draft) :
      Declares block (.pass block draft)

/-- How a turn goes on: behind a piece that is no keyword, behind the name of a queue, or behind
the block of a declaration. -/
inductive GoesOn (s : Span) : Option (Declaration Span) → Span → Prop where
  | past {rest : Shorter s.size} (next : s.next.rest? = some rest) : GoesOn s none rest
  | queue {rest : Shorter s.size} {position : Nat} {queue : RenderQueue}
      {after : Shorter rest.val.size} (next : s.next.rest? = some rest)
      (read : readQueue position rest = .ok (queue, after)) : GoesOn s (some (.queue queue)) after
  | block {rest : Shorter s.size} {block : Block rest.val.size} {declaration : Declaration Span}
      (next : s.next.rest? = some rest) (cut : rest.val.block = .ok block)
      (declares : Declares block.body declaration) : GoesOn s (some declaration) block.after

theorem goesOn_of_turn {declaration : Option (Declaration Span)} {rest : Span}
    (is : s.turn = .goesOn declaration rest) : GoesOn s declaration rest := by
  unfold Span.turn at is
  split at is
  · cases is
  · cases is
  · next rest next =>
    cases is
    exact .past (by rw [next]; rfl)
  · next rest next =>
    cases is
    exact .past (by rw [next]; rfl)
  · next position text rest next =>
    have left : s.next.rest? = some rest := by rw [next]; rfl
    split at is
    · split at is
      · cases is
      · next read =>
        cases is
        exact .queue left read
    · split at is
      · cases is
      · next cut =>
        split at is
        · cases is
        · next read =>
          cases is
          exact .block left cut (.properties read)
    · split at is
      · cases is
      · next cut =>
        cases is
        exact .block left cut .model
    · split at is
      · cases is
      · next cut =>
        split at is
        · cases is
        · next read =>
          cases is
          exact .block left cut (.pass read)
    · cases is
      exact .past left

/-- What is left after a turn is the end of the region. -/
theorem leads_turn {declaration : Option (Declaration Span)} {rest : Span}
    (is : s.turn = .goesOn declaration rest) : ∃ lead, s.Leads lead rest := by
  cases goesOn_of_turn is with
  | past next => exact leads_next next
  | @queue _ _ _ after next read =>
    obtain ⟨⟨content, after'⟩, quoted, named⟩ := except_bind_eq_ok.1 read
    obtain rfl : after' = after := by
      dsimp only at named
      split at named <;> cases named
      rfl
    obtain ⟨lead, leads⟩ := leads_next next
    obtain ⟨lead', leads'⟩ := leads_quoted quoted
    exact ⟨_, leads.trans leads'⟩
  | @block _ block _ next cut =>
    obtain ⟨lead, leads⟩ := leads_next next
    obtain ⟨lead', -, chars, body, after⟩ := block_place cut
    have behind : Span.Leads _ (lead' ++ '\x7b' :: (block.body.val.chars ++ ['\x7d']))
        block.after :=
      { chars := by simpa using chars
        start := by
          rw [after, body, List.length_append, List.length_cons, List.length_append,
            List.length_singleton]
          omega }
    exact ⟨_, leads.trans behind⟩

/-! ## All declarations -/

theorem turn_shorter {declaration : Option (Declaration Span)} {rest : Span}
    (is : s.turn = .goesOn declaration rest) : rest.size < s.size := by
  have step := readBody_turn .empty s
  rw [is] at step
  exact step.1

/-- The declarations that the loop takes in, up to the end of the region or what is malformed. -/
def declarations (s : Span) : List (Declaration Span) :=
  match _turn : s.turn with
  | .finished => []
  | .failed => []
  | .goesOn declaration rest => declaration.toList ++ declarations rest
  termination_by s.size
  decreasing_by exact turn_shorter _turn

/-- What is read of a region that is read to its end are its declarations. -/
theorem readBody_declarations {draft draft' : Draft} (read : readBody draft s = (draft', none)) :
    draft' = (declarations s).foldl Draft.add draft := by
  fun_induction declarations s generalizing draft with
  | case1 s turn =>
    have step := readBody_turn draft s
    rw [turn] at step
    exact congrArg Prod.fst (read.symm.trans step)
  | case2 s turn =>
    have step := readBody_turn draft s
    rw [turn] at step
    obtain ⟨failure, is⟩ := step
    rw [is] at read
    cases read
  | case3 s declaration rest turn ih =>
    have step := readBody_turn draft s
    rw [turn] at step
    rw [ih (step.2.symm.trans read), List.foldl_append]
    cases declaration <;> rfl

/-- A declaration is that of a queue or says what was read from a block. -/
theorem mem_declarations {declaration : Declaration Span} (mem : declaration ∈ declarations s) :
    (∃ queue, declaration = .queue queue) ∨ ∃ block, Declares block declaration := by
  fun_induction declarations s with
  | case1 => cases mem
  | case2 => cases mem
  | case3 s found rest turn ih =>
    rcases List.mem_append.1 mem with here | later
    · obtain rfl := Option.mem_toList.1 here
      cases goesOn_of_turn turn with
      | queue => exact .inl ⟨_, rfl⟩
      | block _ _ declares => exact .inr ⟨_, declares⟩
    · exact ih later

end SurfaceShading.Grammar
