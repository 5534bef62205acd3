/-
  The lines that errors name. A declaration that is malformed or listed twice, and a pragma that
  names no entry point, are reported with the line in which their mark stands (`Offence`), counted
  from 1 in the text as a whole. That is so wherever the block begins and whatever stands before
  it, since the places of the lines of a region are places of the text (`within_lines`), and between
  the start of a line and its mark no line ends (`lineAt_of_line`).
-/
import SurfaceShading.Proofs.Grammar.Bytewise.Safety
import SurfaceShading.Proofs.Grammar.ModelIsolation
import SurfaceShading.Proofs.Text.Lines
import Mathlib.Logic.Relation

namespace SurfaceShading.Grammar

open Text
open Bytewise (next_cases quoted_cases block_cases)

/-! ## Marks in the lines of a text -/

/-- In a line of a text, counted from 1, a mark stands at some place of the text. -/
def HoldsAt (text mark : List Char) (number place : Nat) : Prop :=
  ∃ before lead tail after,
    splitAtChar '\n' text = before ++ (lead ++ (mark ++ tail)) :: after ∧
    number = before.length + 1 ∧ place = (joinWith ['\n'] (before ++ [lead])).length

/-- A mark without a line feed stands in the line that the line feeds before it tell. -/
theorem holdsAt_iff {text mark : List Char} {number place : Nat} :
    HoldsAt text mark number place ↔
      '\n' ∉ mark ∧ Span.Within text ⟨place, mark⟩ ∧ number = lineAt text place := by
  constructor
  · rintro ⟨before, lead, tail, after, cut, rfl, rfl⟩
    have none : ∀ piece ∈ before ++ (lead ++ (mark ++ tail)) :: after, '\n' ∉ piece :=
      fun piece mem => not_mem_of_mem_splitAtChar (cut ▸ mem)
    have whole : text =
        joinWith ['\n'] (before ++ [lead]) ++ joinWith ['\n'] ((mark ++ tail) :: after) := by
      rw [joinWith_append, ← cut, joinWith_splitAtChar]
    obtain ⟨earlier, later⟩ := List.forall_mem_append.1 none
    have single := later _ List.mem_cons_self
    simp only [List.mem_append, not_or] at single
    refine ⟨single.2.1, ⟨?_, ?_⟩, ?_⟩
    · rw [whole, List.length_append]
      exact Nat.le_add_right _ _
    · rw [whole]
      show mark <+: List.drop _ _
      rw [List.drop_left' rfl]
      exact ⟨_, joinWith_append ['\n'] [] mark tail after⟩
    · rw [lineAt, whole, List.take_left' rfl, count_joinWith]
      exact List.forall_mem_append.2 ⟨earlier, List.forall_mem_singleton.2 single.1⟩
  · rintro ⟨none, ⟨reach, rest, split⟩, rfl⟩
    have reach' : place ≤ text.length := reach
    obtain ⟨before, lead, cut⟩ : ∃ before lead,
        splitAtChar '\n' (text.take place) = before ++ [lead] :=
      ⟨_, _, (List.dropLast_append_getLast (splitAtChar_ne_nil _ _)).symm⟩
    obtain ⟨tail, after, cut'⟩ := List.exists_cons_of_ne_nil (splitAtChar_ne_nil '\n' rest)
    have front : text.take place = joinWith ['\n'] (before ++ [lead]) := by
      rw [← cut, joinWith_splitAtChar]
    have single : ∀ piece ∈ before ++ [lead], '\n' ∉ piece := fun piece mem =>
      not_mem_of_mem_splitAtChar (cut ▸ mem)
    refine ⟨before, lead, tail, after, ?_, ?_, ?_⟩
    · rw [← List.take_append_drop place text, ← show mark ++ rest = _ from split]
      have line : splitAtChar '\n' mark = [] ++ [mark] := splitAtChar_single none
      exact splitAtChar_append cut (splitAtChar_append line cut')
    · rw [lineAt, front, count_joinWith single]
    · rw [← front, List.length_take_of_le reach']

/-! ## Lines of a region -/

section

variable {text : List Char} {s line : Span}

theorem within_placed {start : Nat} {pieces : List (List Char)}
    (within : Span.Within text ⟨start, joinWith ['\n'] pieces⟩)
    (mem : line ∈ Span.lines.placed start pieces) : line.Within text := by
  induction pieces generalizing start with
  | nil => cases mem
  | cons piece pieces ih =>
    by_cases more : pieces = []
    · subst more
      rw [List.mem_singleton.1 mem]
      exact within
    · have split := joinWith_cons ['\n'] piece more
      rcases List.mem_cons.1 mem with rfl | later
      · exact within.part [] (['\n'] ++ joinWith ['\n'] pieces)
          (split.trans (List.append_assoc _ _ _)) rfl
      · refine ih (within.part (piece ++ ['\n']) [] ?_ ?_) later
        · exact split.trans (congrArg _ (List.append_nil _).symm)
        · rw [List.length_append]
          exact Nat.add_assoc _ _ _

/-- The lines of a region stand in the text, and no line ends inside of one. -/
theorem within_lines (within : s.Within text) (mem : line ∈ s.lines) :
    line.Within text ∧ '\n' ∉ line.chars := by
  have region : Span.Within text ⟨s.start, joinWith ['\n'] (splitAtChar '\n' s.chars)⟩ := by
    rw [joinWith_splitAtChar]
    exact within
  have piece : line.chars ∈ splitAtChar '\n' s.chars := by
    rw [← lines_chars]
    exact List.mem_map_of_mem mem
  exact ⟨within_placed region mem, not_mem_of_mem_splitAtChar piece⟩

/-- No line of the text ends between the start of a line and a place in it. -/
theorem lineAt_of_line (within : line.Within text) (single : '\n' ∉ line.chars) {n : Nat}
    (le : n ≤ line.size) : lineAt text (line.start + n) = lineAt text line.start := by
  obtain ⟨rest, split⟩ := within.2
  have between : ((text.drop line.start).take n).count '\n' = 0 := by
    rw [← split, List.take_append_of_le_length le]
    exact List.count_eq_zero.2 fun mem => single (List.mem_of_mem_take mem)
  rw [lineAt, lineAt, List.take_add, List.count_append, between, Nat.add_zero]

end

/-! ## Lines that are refused -/

/-- The causes that a single line of a block is refused for. -/
def ofLine : ParseCause → Bool
  | .property _ | .duplicateProperty _ | .missingEntryPoint => true
  | _ => false

/-- What a line of a `Properties` block is refused for behind the lines that list some
properties. -/
inductive RefusesProperty (seen : List Property) (line : List Char) : ParseCause → Prop where
  | malformed {fault : PropertyFault} (read : declaration? line = some (.error fault)) :
      RefusesProperty seen line (.property fault)
  | duplicate {p q : Property} (read : declaration? line = some (.ok p)) (listed : q ∈ seen)
      (same : q.name = p.name) : RefusesProperty seen line (.duplicateProperty p.name)

theorem readDeclarations_cons (seen : List Property) (line : Span) (lines : List Span) :
    readDeclarations seen (line :: lines) =
      readDeclarations seen [line] >>= fun seen => readDeclarations seen lines := by
  rw [readDeclarations, readDeclarations]
  split
  · rfl
  · rfl
  · split <;> rfl

theorem readDeclarations_single {seen : List Property} {line : Span} {failure : Failure} :
    readDeclarations seen [line] = .error failure ↔
      RefusesProperty seen line.chars failure.cause ∧ failure.position = line.start := by
  constructor
  · intro read
    rw [readDeclarations] at read
    split at read
    · cases read
    · next fault malformed =>
      cases read
      exact ⟨.malformed malformed, rfl⟩
    · next p ok =>
      split at read
      · next known =>
        cases read
        obtain ⟨q, listed, same⟩ := List.any_eq_true.1 known
        exact ⟨.duplicate ok listed (eq_of_beq same), rfl⟩
      · cases read
  · obtain ⟨position, cause⟩ := failure
    rintro ⟨refused, rfl⟩
    rw [readDeclarations]
    cases refused with
    | malformed malformed => rw [malformed]
    | duplicate ok listed same =>
      rw [ok]
      exact if_pos (List.any_eq_true.2 ⟨_, listed, by rw [same, beq_self_eq_true]⟩)

/-- Reading a block fails at the first line that is refused. -/
theorem readDeclarations_eq_error {seen : List Property} {lines : List Span} {failure : Failure} :
    readDeclarations seen lines = .error failure ↔ ∃ before line after seen',
      lines = before ++ line :: after ∧ readDeclarations seen before = .ok seen' ∧
      RefusesProperty seen' line.chars failure.cause ∧ failure.position = line.start := by
  induction lines generalizing seen with
  | nil =>
    constructor
    · intro read
      cases read
    · rintro ⟨before, line, after, -, split, -⟩
      cases before <;> cases split
  | cons line lines ih =>
    rw [readDeclarations_cons]
    constructor
    · intro read
      cases first : readDeclarations seen [line] with
      | error failure' =>
        rw [first] at read
        cases read
        exact ⟨[], line, lines, seen, rfl, rfl, readDeclarations_single.1 first⟩
      | ok seen' =>
        rw [first] at read
        obtain ⟨before, line', after, seen'', rfl, ok, refused⟩ := ih.1 read
        refine ⟨line :: before, line', after, seen'', rfl, ?_, refused⟩
        rw [readDeclarations_cons, first]
        exact ok
    · rintro ⟨before, line', after, seen', split, ok, refused⟩
      cases before with
      | nil =>
        obtain ⟨rfl, rfl⟩ := List.cons.inj split
        cases ok
        rw [readDeclarations_single.2 refused]
        rfl
      | cons line before =>
        obtain ⟨rfl, rfl⟩ := List.cons.inj split
        rw [readDeclarations_cons] at ok
        obtain ⟨seen'', first, ok⟩ := except_bind_eq_ok.1 ok
        rw [first]
        exact ih.2 ⟨before, line', after, seen', rfl, ok, refused⟩

/-- The line has the words of a pragma for an entry point, and no name behind them. -/
def isNameless (line : List Char) : Bool :=
  match entryPragma? line with
  | some (_, none) => true
  | _ => false

/-- Reading native code fails at the first pragma without a name. -/
theorem readProgram_eq_error {lines : List Span} {failure : Failure} :
    readProgram lines = .error failure ↔ ∃ line,
      lines.find? (fun line => isNameless line.chars) = some line ∧
      failure = ⟨line.start, .missingEntryPoint⟩ := by
  -- A step that takes a line in does not change what the lines behind it fail with.
  have behind {x : Except Failure Program} {f : Program → Program} :
      (x >>= fun program => .ok (f program)) = .error failure ↔ x = .error failure := by
    cases x with
    | error failure' => exact Iff.rfl
    | ok program => exact ⟨nofun, nofun⟩
  induction lines with
  | nil => exact ⟨nofun, nofun⟩
  | cons line lines ih =>
    cases pragma : entryPragma? line.chars with
    | none =>
      rw [readProgram, pragma, List.find?_cons_of_neg (by simp [isNameless, pragma])]
      exact behind.trans ih
    | some found =>
      obtain ⟨stage, entry⟩ := found
      cases entry with
      | none =>
        rw [readProgram, pragma, List.find?_cons_of_pos (by rw [isNameless, pragma])]
        constructor
        · rintro ⟨⟩
          exact ⟨line, rfl, rfl⟩
        · rintro ⟨_, ⟨⟩, rfl⟩
          rfl
      | some entry =>
        rw [readProgram, pragma, List.find?_cons_of_neg (by simp [isNameless, pragma])]
        cases stage <;> exact behind.trans ih

/-! ## Failures apart from those of lines -/

section

variable {s : Span} {failure : Failure}

theorem ofLine_quoted (failed : s.quoted = .error failure) : ofLine failure.cause = false := by
  rcases quoted_cases s with ⟨-, is⟩ | ⟨_, _, -, -, -, is⟩ | ⟨_, _, _, -, -, is, -⟩
  · cases failed.symm.trans is
    rfl
  · cases failed.symm.trans is
    rfl
  · cases failed.symm.trans is

theorem ofLine_next (failed : s.next = .broken failure) : ofLine failure.cause = false := by
  rcases next_cases s with ⟨-, is⟩ | ⟨_, -, ⟨failure', quoted, is⟩ | ⟨_, _, _, -, is, -⟩⟩ |
    ⟨_, _, -, -, ⟨-, _, is, -⟩ | ⟨-, _, is, -⟩⟩
  · cases failed.symm.trans is
  · cases failed.symm.trans is
    exact ofLine_quoted quoted
  · cases failed.symm.trans is
  · cases failed.symm.trans is
  · cases failed.symm.trans is

theorem ofLine_block (failed : s.block = .error failure) : ofLine failure.cause = false := by
  rcases block_cases s with ⟨-, is⟩ | ⟨_, _, -, -, ⟨-, is⟩ | ⟨_, _, -, is, -⟩⟩
  · cases failed.symm.trans is
    rfl
  · cases failed.symm.trans is
    rfl
  · cases failed.symm.trans is

theorem ofLine_queue {position : Nat} (failed : readQueue position s = .error failure) :
    ofLine failure.cause = false := by
  rw [readQueue] at failed
  cases quoted : s.quoted with
  | error failure' =>
    rw [quoted] at failed
    cases failed
    exact ofLine_quoted quoted
  | ok found =>
    rw [quoted] at failed
    dsimp only [bind, Except.bind] at failed
    split at failed
    · cases failed
    · cases failed
      rfl

theorem ofLine_header {header : Header} (failed : readHeader header s = .error failure) :
    ofLine failure.cause = false := by
  fun_induction readHeader header s with
  | case1 => cases failed
  | case2 header s failure' next =>
    cases failed
    exact ofLine_next next
  | case3 _ _ _ _ ih => exact ih failed
  | case4 _ _ _ _ _ _ ih => exact ih failed
  | case5 _ _ _ _ _ _ _ _ ih => exact ih failed
  | case6 _ _ _ _ _ quoted =>
    cases failed
    exact ofLine_quoted quoted
  | case7 _ _ _ _ _ _ _ _ ih => exact ih failed
  | case8 _ _ _ _ _ queue =>
    cases failed
    exact ofLine_queue queue
  | case9 _ _ _ _ _ _ _ _ ih => exact ih failed

theorem ofLine_shader (failed : findShader s = .error failure) :
    ofLine failure.cause = false := by
  fun_induction findShader s with
  | case1 =>
    cases failed
    rfl
  | case2 s failure' next =>
    cases failed
    exact ofLine_next next
  | case3 _ _ _ ih => exact ih failed
  | case4 _ _ _ _ _ ih => exact ih failed
  | case5 => cases failed
  | case6 _ _ _ failure' quoted =>
    cases failed
    exact ofLine_quoted quoted
  | case7 _ _ _ _ _ _ ih => exact ih failed

end

/-! ## Blocks that are refused -/

section

variable {s : Span} {failure : Failure}

/-- The native code of a pass, between its marks, with a header before it that can be read. -/
def IsProgram (s code : Span) : Prop :=
  ∃ start length header, indexOf? programStart s.chars = some start ∧
    indexOf? programEnd (s.drop (start + programStart.length)).chars = some length ∧
    readHeader ⟨none, none⟩ (s.take start) = .ok header ∧
    code = (s.drop (start + programStart.length)).take length

/-- A pass fails at a line if its native code does. -/
theorem readPass_eq_error (is : ofLine failure.cause = true) :
    readPass s = .error failure ↔
      ∃ code, IsProgram s code ∧ readProgram code.lines = .error failure := by
  constructor
  · intro failed
    unfold readPass at failed
    split at failed
    · cases failed
      cases is
    · next start marked =>
      dsimp only at failed
      split at failed
      · cases failed
        cases is
      · next length closed =>
        cases header : readHeader ⟨none, none⟩ (s.take start) with
        | error failure' =>
          rw [header] at failed
          cases failed
          rw [ofLine_header header] at is
          cases is
        | ok read =>
          refine ⟨_, ⟨start, length, read, marked, closed, header, rfl⟩, ?_⟩
          rw [header] at failed
          dsimp only [bind, Except.bind] at failed
          split at failed
          · next program =>
            cases failed
            exact program
          · split at failed
            · cases failed
              cases is
            · cases failed
              cases is
            · cases failed
  · rintro ⟨_, ⟨start, length, header, marked, closed, read, rfl⟩, failed⟩
    unfold readPass
    rw [marked]
    dsimp only
    rw [closed]
    dsimp only
    rw [read]
    dsimp only [bind, Except.bind]
    rw [failed]

/-- The next piece of a region is a keyword, and behind it there is a block. -/
def OpensBlock (s : Span) (keyword : String) (block : Span) : Prop :=
  ∃ position, ∃ rest : Shorter s.size, ∃ b, s.next = .name position keyword rest ∧
    rest.val.block = .ok b ∧ b.body.val = block

/-- The block at hand cannot be read. -/
inductive RefusesBlock (s : Span) (failure : Failure) : Prop where
  | properties {block : Span} (opens : OpensBlock s "Properties" block)
      (failed : readProperties block = .error failure) : RefusesBlock s failure
  | pass {block : Span} (opens : OpensBlock s "Pass" block)
      (failed : readPass block = .error failure) : RefusesBlock s failure

theorem RefusesBlock.readBody (refuses : RefusesBlock s failure) (draft : Draft) :
    (readBody draft s).2 = some failure := by
  cases refuses with
  | properties opens failed =>
    obtain ⟨position, rest, b, next, cut, rfl⟩ := opens
    rw [readBody.eq_def, next]
    simp only [cut, failed]
  | pass opens failed =>
    obtain ⟨position, rest, b, next, cut, rfl⟩ := opens
    rw [readBody.eq_def, next]
    simp only [cut, failed]

/-- A turn that fails with a cause of a line is at a block that cannot be read. -/
theorem refusesBlock_of_failed {draft : Draft} (is : ofLine failure.cause = true)
    (turn : s.turn = .failed) (failed : (readBody draft s).2 = some failure) :
    RefusesBlock s failure := by
  have other {failure' : Failure} (some : some failure' = some failure)
      (apart : ofLine failure'.cause = false) : RefusesBlock s failure := by
    cases some
    rw [apart] at is
    cases is
  rw [readBody.eq_def] at failed
  unfold Span.turn at turn
  cases next : s.next with
  | finished =>
    rw [next] at turn
    cases turn
  | broken failure' =>
    rw [next] at failed
    exact other failed (ofLine_next next)
  | string rest =>
    rw [next] at turn
    cases turn
  | other _ _ rest =>
    rw [next] at turn
    cases turn
  | name position text rest =>
    rw [next] at failed turn
    dsimp only at failed turn
    by_cases isQueue : text = "RenderQueue"
    · subst isQueue
      simp only at failed turn
      cases queue : readQueue position rest with
      | error failure' =>
        rw [queue] at failed
        exact other failed (ofLine_queue queue)
      | ok found =>
        rw [queue] at turn
        cases turn
    by_cases isProperties : text = "Properties"
    · subst isProperties
      simp only at failed turn
      cases cut : rest.val.block with
      | error failure' =>
        rw [cut] at failed
        exact other failed (ofLine_block cut)
      | ok block =>
        rw [cut] at failed turn
        dsimp only at failed turn
        cases read : readProperties block.body with
        | error failure' =>
          rw [read] at failed
          cases failed
          exact .properties ⟨position, rest, block, next, cut, rfl⟩ read
        | ok properties =>
          rw [read] at turn
          cases turn
    by_cases isModel : text = "ShadingModel"
    · subst isModel
      simp only at failed turn
      cases cut : rest.val.block with
      | error failure' =>
        rw [cut] at failed
        exact other failed (ofLine_block cut)
      | ok block =>
        rw [cut] at turn
        cases turn
    by_cases isPass : text = "Pass"
    · subst isPass
      simp only at failed turn
      cases cut : rest.val.block with
      | error failure' =>
        rw [cut] at failed
        exact other failed (ofLine_block cut)
      | ok block =>
        rw [cut] at failed turn
        dsimp only at failed turn
        cases read : readPass block.body with
        | error failure' =>
          rw [read] at failed
          cases failed
          exact .pass ⟨position, rest, block, next, cut, rfl⟩ read
        | ok pass =>
          rw [read] at turn
          cases turn
    · simp only at turn
      cases turn

end

/-! ## Where reading stops -/

/-- The loop over the declarations comes from one region to another. -/
def Reaches : Span → Span → Prop :=
  Relation.ReflTransGen fun s t => ∃ declaration, s.turn = .goesOn declaration t

/-- Reading declarations fails at a line iff the loop comes to a block that is refused. -/
theorem readBody_eq_error {s : Span} {failure : Failure} (is : ofLine failure.cause = true)
    (draft : Draft) :
    (readBody draft s).2 = some failure ↔ ∃ t, Reaches s t ∧ RefusesBlock t failure := by
  constructor
  · intro failed
    induction size : s.size using Nat.strong_induction_on generalizing s draft with
    | _ size ih =>
      subst size
      have step := readBody_turn draft s
      cases turn : s.turn with
      | finished =>
        rw [turn] at step
        rw [show readBody draft s = _ from step] at failed
        cases failed
      | failed => exact ⟨s, .refl, refusesBlock_of_failed is turn failed⟩
      | goesOn declaration t =>
        rw [turn] at step
        rw [step.2] at failed
        obtain ⟨u, further, refuses⟩ := ih t.size step.1 _ failed rfl
        exact ⟨u, .head ⟨declaration, turn⟩ further, refuses⟩
  · rintro ⟨t, reaches, refuses⟩
    induction reaches using Relation.ReflTransGen.head_induction_on generalizing draft with
    | refl => exact refuses.readBody draft
    | @head s _ turn _ ih =>
      obtain ⟨declaration, turn⟩ := turn
      have step := readBody_turn draft s
      rw [turn] at step
      rw [step.2]
      exact ih _

/-- The inside of the block of the shader that a text declares. -/
def IsShader (text : List Char) (body : Span) : Prop :=
  ∃ name rest, ∃ b : Block rest.size, findShader (.whole text) = .ok (name, rest) ∧
    (trim name).isEmpty = false ∧ rest.block = .ok b ∧ b.body.val = body

theorem read_eq_error {text : List Char} {number : Nat} {cause : ParseCause}
    (is : ofLine cause = true) :
    (read text).result = .error ⟨number, cause⟩ ↔ ∃ body failure, IsShader text body ∧
      (readBody .empty body).2 = some failure ∧ failure.toError text = ⟨number, cause⟩ := by
  have other {failure : Failure} (apart : ofLine failure.cause = false)
      (failed : Except.error (failure.toError text) = .error (α := Definition) ⟨number, cause⟩) :
      False := by
    cases failed
    rw [apart] at is
    cases is
  constructor
  · intro failed
    unfold read at failed
    split at failed
    · next failure found => exact (other (ofLine_shader found) failed).elim
    · next name rest found =>
      dsimp only at failed
      split at failed
      · exact (@other ⟨_, .emptyName⟩ rfl failed).elim
      · next named =>
        split at failed
        · next failure cut => exact (other (ofLine_block cut) failed).elim
        · next b cut =>
          split at failed
          · next failure stops =>
            exact ⟨_, failure, ⟨name, rest, b, found, Bool.eq_false_iff.2 named, cut, rfl⟩, stops,
              Except.error.inj failed⟩
          · split at failed
            · exact (@other ⟨_, .noPasses _⟩ rfl failed).elim
            · cases failed
  · rintro ⟨body, failure, ⟨name, rest, b, found, named, cut, rfl⟩, stops, told⟩
    rw [read, found]
    dsimp only
    rw [if_neg (Bool.eq_false_iff.1 named), cut]
    dsimp only
    rw [stops]
    exact congrArg _ told

/-- In the block of a shader the loop over the declarations comes to a block that is refused. -/
def StopsAt (text : List Char) (failure : Failure) : Prop :=
  ∃ body s, IsShader text body ∧ Reaches body s ∧ RefusesBlock s failure

/-! ## The lines that errors name -/

/-- The inside of the block behind a keyword, to which the loop over the declarations of a shader
comes. -/
def IsBlock (text : List Char) (keyword : String) (block : Span) : Prop :=
  ∃ body s, IsShader text body ∧ Reaches body s ∧ OpensBlock s keyword block

/-- A line has nothing but blanks before a mark, which stands at some place of the text. -/
def MarkedAt (line : Span) (mark : List Char) (place : Nat) : Prop :=
  ∃ blanks rest, line.chars = blanks ++ (mark ++ rest) ∧ (∀ c ∈ blanks, isBlank c = true) ∧
    place = line.start + blanks.length

/-- The mark of a line that a text is refused for: that of the first declaration of a `Properties`
block that is malformed or listed before in the block, or that of the first pragma of a pass
without the name of its entry point. -/
inductive Offence (text : List Char) : ParseCause → List Char → Nat → Prop where
  | property {block line : Span} {before after : List Span} {seen : List Property}
      {cause : ParseCause} {place : Nat} (inside : IsBlock text "Properties" block)
      (lines : block.lines = before ++ line :: after) (read : readDeclarations [] before = .ok seen)
      (refused : RefusesProperty seen line.chars cause)
      (marked : MarkedAt line propertyMark place) : Offence text cause propertyMark place
  | pragma {block code line : Span} {place : Nat} (inside : IsBlock text "Pass" block)
      (program : IsProgram block code)
      (first : code.lines.find? (fun line => isNameless line.chars) = some line)
      (marked : MarkedAt line pragmaMark place) :
      Offence text .missingEntryPoint pragmaMark place

section

variable {text : List Char}

theorem IsShader.within {body : Span} (is : IsShader text body) : body.Within text := by
  obtain ⟨name, rest, b, found, -, cut, rfl⟩ := is
  obtain ⟨lead, -, leads⟩ := leads_shader found
  exact (within_block (leads.within ⟨Nat.zero_le _, List.prefix_rfl⟩) cut).1

theorem Reaches.within {s t : Span} (reaches : Reaches s t) (within : s.Within text) :
    t.Within text := by
  induction reaches with
  | refl => exact within
  | tail _ turn ih =>
    obtain ⟨declaration, turn⟩ := turn
    obtain ⟨lead, leads⟩ := leads_turn turn
    exact leads.within ih

/-- A block to which the loop comes stands in the text. -/
theorem IsBlock.within {keyword : String} {block : Span} (is : IsBlock text keyword block) :
    block.Within text := by
  obtain ⟨body, s, shader, reaches, position, rest, b, next, cut, rfl⟩ := is
  have left : s.next.rest? = some rest := by rw [next]; rfl
  obtain ⟨lead, leads⟩ := leads_next left
  exact (within_block (leads.within (reaches.within shader.within)) cut).1

/-- The native code of a pass stands in the text. -/
theorem IsProgram.within {s code : Span} (is : IsProgram s code) (within : s.Within text) :
    code.Within text := by
  obtain ⟨start, length, header, marked, -, -, rfl⟩ := is
  obtain ⟨before, after, chars, rfl⟩ := indexOf?_eq_some marked
  refine Span.Within.take ((Span.Leads.drop ?_).within within) length
  rw [Span.size, chars, ← List.append_assoc, List.length_append, List.length_append]
  exact Nat.le_add_right _ _

/-- A text that begins with a mark when trimmed has blanks before the mark. -/
theorem exists_markedAt {line : Span} {mark rest : List Char}
    (after : after? mark (trim line.chars) = some rest) : ∃ place, MarkedAt line mark place := by
  obtain ⟨blanks, blanks', chars, blank, -⟩ := exists_trim line.chars
  rw [after?_eq_some after, List.append_assoc, List.append_assoc] at chars
  exact ⟨_, blanks, rest ++ blanks', chars, blank, rfl⟩

theorem RefusesProperty.markedAt {seen : List Property} {line : Span} {cause : ParseCause}
    (refused : RefusesProperty seen line.chars cause) :
    ∃ place, MarkedAt line propertyMark place := by
  have marked {x : Except PropertyFault Property} (read : declaration? line.chars = some x) :
      ∃ place, MarkedAt line propertyMark place := by
    obtain ⟨rest, after, -⟩ := Option.map_eq_some_iff.1 read
    exact exists_markedAt after
  cases refused with
  | malformed read => exact marked read
  | duplicate read => exact marked read

theorem markedAt_of_nameless {line : Span} (nameless : isNameless line.chars = true) :
    ∃ place, MarkedAt line pragmaMark place := by
  cases after : after? pragmaMark (trim line.chars) with
  | none =>
    rw [isNameless, entryPragma?, after] at nameless
    cases nameless
  | some rest => exact exists_markedAt after

/-- The line in which a mark stands is the one in which the line of its region starts. -/
theorem MarkedAt.holdsAt_iff {line : Span} {mark : List Char} {number place : Nat}
    (marked : MarkedAt line mark place) (within : line.Within text) (single : '\n' ∉ line.chars) :
    HoldsAt text mark number place ↔ number = lineAt text line.start := by
  obtain ⟨blanks, rest, chars, -, rfl⟩ := marked
  have le : blanks.length ≤ line.size := by
    rw [Span.size, chars, List.length_append]
    exact Nat.le_add_right _ _
  have part : Span.Within text ⟨line.start + blanks.length, mark⟩ :=
    within.part blanks rest chars rfl
  have none : '\n' ∉ mark := fun mem => single (by rw [chars]; simp [mem])
  rw [Grammar.holdsAt_iff, lineAt_of_line within single le]
  exact ⟨fun is => is.2.2, fun is => ⟨none, part, is⟩⟩

theorem mem_lines {block line : Span} {before after : List Span}
    (lines : block.lines = before ++ line :: after) : line ∈ block.lines := by
  rw [lines]
  exact List.mem_append_cons_self

theorem RefusesProperty.ofLine {seen : List Property} {line : List Char} {cause : ParseCause}
    (refused : RefusesProperty seen line cause) : ofLine cause = true := by
  cases refused <;> rfl

theorem parse_eq_error {text : String} {number : Nat} {cause : ParseCause}
    (is : ofLine cause = true) : Definition.parse text = .error ⟨number, cause⟩ ↔
      ∃ failure, StopsAt text.toList failure ∧ failure.toError text.toList = ⟨number, cause⟩ := by
  -- The cause of the error is that of the failure.
  have same {failure : Failure} (told : failure.toError text.toList = ⟨number, cause⟩) :
      ofLine failure.cause = true :=
    (congrArg (ofLine ∘ ParseError.cause) told).trans is
  refine (read_eq_error is).trans ⟨?_, ?_⟩
  · rintro ⟨body, failure, shader, stops, told⟩
    obtain ⟨s, reaches, refuses⟩ := (readBody_eq_error (same told) .empty).1 stops
    exact ⟨failure, ⟨body, s, shader, reaches, refuses⟩, told⟩
  · rintro ⟨failure, ⟨body, s, shader, reaches, refuses⟩, told⟩
    exact ⟨body, failure, shader, (readBody_eq_error (same told) .empty).2 ⟨s, reaches, refuses⟩,
      told⟩

/-- Where reading stops at a line there is an offence, whose mark stands in that line. -/
theorem offence_of_stopsAt {failure : Failure} (is : ofLine failure.cause = true)
    (stops : StopsAt text failure) : ∃ mark place, Offence text failure.cause mark place ∧
      HoldsAt text mark (lineAt text failure.position) place := by
  obtain ⟨position, cause⟩ := failure
  obtain ⟨body, s, shader, reaches, refuses⟩ := stops
  cases refuses with
  | @properties block opens failed =>
    have inside : IsBlock text "Properties" block := ⟨body, s, shader, reaches, opens⟩
    obtain ⟨before, line, after, seen, lines, read, refused, rfl⟩ :=
      readDeclarations_eq_error.1 failed
    obtain ⟨within, single⟩ := within_lines inside.within (mem_lines lines)
    obtain ⟨place, marked⟩ := refused.markedAt
    exact ⟨propertyMark, place, .property inside lines read refused marked,
      (marked.holdsAt_iff within single).2 rfl⟩
  | @pass block opens failed =>
    have inside : IsBlock text "Pass" block := ⟨body, s, shader, reaches, opens⟩
    obtain ⟨code, program, failed⟩ := (readPass_eq_error is).1 failed
    obtain ⟨line, first, same⟩ := readProgram_eq_error.1 failed
    obtain ⟨rfl, rfl⟩ := Failure.mk.inj same
    obtain ⟨within, single⟩ :=
      within_lines (program.within inside.within) (List.mem_of_find?_eq_some first)
    have nameless := List.find?_some first
    obtain ⟨place, marked⟩ := markedAt_of_nameless nameless
    exact ⟨pragmaMark, place, .pragma inside program first marked,
      (marked.holdsAt_iff within single).2 rfl⟩

/-- Reading stops at the line in which the mark of an offence stands. -/
theorem Offence.stopsAt {cause : ParseCause} {mark : List Char} {place : Nat}
    (offence : Offence text cause mark place) : ofLine cause = true ∧ ∃ position,
      StopsAt text ⟨position, cause⟩ ∧
      ∀ number, HoldsAt text mark number place → number = lineAt text position := by
  cases offence with
  | @property block line before after seen _ _ inside lines read refused marked =>
    obtain ⟨within, single⟩ := within_lines inside.within (mem_lines lines)
    obtain ⟨body, s, shader, reaches, opens⟩ := inside
    refine ⟨refused.ofLine, line.start, ⟨body, s, shader, reaches, .properties opens ?_⟩,
      fun number => (marked.holdsAt_iff within single).1⟩
    exact readDeclarations_eq_error.2 ⟨before, line, after, seen, lines, read, refused, rfl⟩
  | @pragma block code line _ inside program first marked =>
    obtain ⟨within, single⟩ :=
      within_lines (program.within inside.within) (List.mem_of_find?_eq_some first)
    obtain ⟨body, s, shader, reaches, opens⟩ := inside
    refine ⟨rfl, line.start, ⟨body, s, shader, reaches, .pass opens ?_⟩,
      fun number => (marked.holdsAt_iff within single).1⟩
    exact (readPass_eq_error rfl).2 ⟨code, program, readProgram_eq_error.2 ⟨line, first, rfl⟩⟩

/-- Reading a text fails at the line of a block iff there is an offence, and then the line is the
one in which its mark stands. The reader by byte offsets reports the same. -/
theorem parse_error_line (text : String) (number : Nat) (cause : ParseCause) :
    ((Definition.parse text = .error ⟨number, cause⟩ ∧ ofLine cause = true) ↔
      ∃ mark place, Offence text.toList cause mark place ∧
        HoldsAt text.toList mark number place) ∧
    (Bytewise.read text.toList).map Reading.result = .ok (Definition.parse text) := by
  refine ⟨⟨?_, ?_⟩, by rw [Bytewise.read_eq]; rfl⟩
  · rintro ⟨failed, is⟩
    obtain ⟨⟨position, cause⟩, stops, told⟩ := (parse_eq_error is).1 failed
    obtain ⟨rfl, rfl⟩ := ParseError.mk.inj told
    exact offence_of_stopsAt is stops
  · rintro ⟨mark, place, offence, holds⟩
    obtain ⟨is, position, stops, only⟩ := offence.stopsAt
    obtain rfl := only number holds
    exact ⟨(parse_eq_error is).2 ⟨⟨position, cause⟩, stops, rfl⟩, is⟩

end

/-- Neither the bytes of a character nor carriage returns and other blanks change the number of a
line. -/
example : Definition.parse ("// \u00e9\u2028\r\nShader \"Rock\" \x7b Properties \x7b " ++
    "//# Float _A\r\n\u00a0//# Flot _B \x7d \x7d") =
      .error ⟨3, .property (.unknownType "Flot")⟩ := by
  decide +kernel

/-- Native code may begin in the line of the pragma. -/
example : Definition.parse ("\r\nShader \"Rock\" \x7b\n" ++
    "Pass \x7b /* \u6f22 */ HLSLPROGRAM #pragma vertex \r\nENDHLSL \x7d \x7d") =
      .error ⟨3, .missingEntryPoint⟩ := by
  decide +kernel

end SurfaceShading.Grammar
