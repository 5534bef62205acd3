/-
  Where a block begins and ends. A block begins behind the first opening brace at or behind the
  place where it is looked for, and ends before the first place at which the count of braces from
  that one on is zero (`Cut`). Whatever comes later does not count: if the braces of the first one
  do not come out even there is no block, also where those of a later one do.

  The count is kept as a depth that is not allowed below zero. It never gets there, since the first
  brace opens and the count ends at zero, and what it passes over is balanced. All this is said of
  byte offsets, from any one on, and of the places of characters, and the two agree where both are
  given (`block_within`).
-/
import SurfaceShading.Proofs.Grammar.Bytewise.Lines
import SurfaceShading.Proofs.Grammar.Declarations

namespace SurfaceShading.Grammar

open Text
open Bytewise (Region Scan block_cases block_eq ends fail lift matching told)

/-! ## Counting groups -/

section

variable {opener closer : Char}

/-- How many groups a text opens more than it closes. -/
def excess (opener closer : Char) (cs : List Char) : Int := cs.count opener - cs.count closer

theorem excess_cons (apart : opener ≠ closer) (cs : List Char) :
    excess opener closer (opener :: cs) = excess opener closer cs + 1 := by
  rw [excess, excess, List.count_cons_self, List.count_cons_of_ne apart]
  omega

theorem excess_append (cs ds : List Char) :
    excess opener closer (cs ++ ds) = excess opener closer cs + excess opener closer ds := by
  simp only [excess, List.count_append]
  omega

theorem Balanced.excess_eq {cs : List Char} (balanced : Balanced opener closer cs) :
    excess opener closer cs = 0 := by
  rw [excess, balanced.all]
  omega

theorem Balanced.excess_nonneg {cs before : List Char} (balanced : Balanced opener closer cs)
    (is : before <+: cs) : 0 ≤ excess opener closer before := by
  have never := balanced.never before is
  rw [excess]
  omega

/-- What stands before the mark that closes a group is balanced. -/
theorem balanced_of_closing (apart : opener ≠ closer) {n : Nat} {cs : List Char}
    (closed : closing opener closer 0 cs = some n) :
    ∃ body rest, cs = body ++ closer :: rest ∧ body.length = n ∧ Balanced opener closer body := by
  obtain ⟨body, rest, split, length, never, all⟩ := closing_eq_some apart closed
  exact ⟨body, rest, split, length, by simpa using never, by simpa using all⟩

/-- Where not all groups are closed, more are open all along. -/
theorem closing_eq_none (apart : opener ≠ closer) {depth : Nat} {cs : List Char}
    (none : closing opener closer depth cs = none) :
    ∀ before, before <+: cs → before.count closer ≤ depth + before.count opener := by
  fun_induction closing opener closer depth cs with
  | case1 =>
    intro before is
    rw [List.prefix_nil.1 is]
    exact Nat.zero_le _
  | case2 depth cs ih =>
    refine count_before_cons (ih (Option.map_eq_none_iff.1 none)) ?_
    simp [apart]
  | case3 => cases none
  | case4 cs depth _ ih =>
    refine count_before_cons (ih (Option.map_eq_none_iff.1 none)) ?_
    simp [apart.symm]
  | case5 depth c cs noOpener noCloser ih =>
    refine count_before_cons (ih (Option.map_eq_none_iff.1 none)) ?_
    simp [noOpener, noCloser]

/-- Counting down from the group at hand, the depth stays above zero up to the mark that closes
it. -/
theorem matching_eq_closing {ε : Type} (depth : Nat) (cs : List Char) :
    (matching opener closer (depth + 1) cs : Except (Stop ε) _) =
      .ok (closing opener closer depth cs) := by
  induction cs generalizing depth with
  | nil => rfl
  | cons c cs ih =>
    rw [Bytewise.matching.eq_def, closing.eq_def]
    dsimp only
    by_cases opens : c = opener
    · rw [if_pos opens, if_pos opens, ih]
      rfl
    rw [if_neg opens, if_neg opens]
    by_cases closes : c = closer
    · rw [if_pos closes, if_pos closes]
      cases depth with
      | zero => rfl
      | succ depth =>
        show (matching opener closer (depth + 1) cs).map _ = _
        rw [ih]
        rfl
    · rw [if_neg closes, if_neg closes, ih]
      rfl

end

/-! ## The first block -/

/-- The count of braces from one place on, up to another and with it. -/
def braceCount (us : List Char) (first last : Nat) : Int :=
  excess '\x7b' '\x7d' ((us.take (last + 1)).drop first)

/-- The first opening brace between two places is here. -/
structure OpensAt (us : List Char) (start limit here : Nat) : Prop where
  behind : start ≤ here
  inside : here < limit
  brace : us[here]? = some '\x7b'
  first : ∀ i, start ≤ i → i < here → us[i]? ≠ some '\x7b'

/-- Before the limit, the count of braces from the opening one on is zero here for the first
time. -/
structure ClosesAt (us : List Char) (limit opening here : Nat) : Prop where
  behind : opening ≤ here
  inside : here < limit
  even : braceCount us opening here = 0
  first : ∀ i, opening ≤ i → i < here → braceCount us opening i ≠ 0

/-- What looking for a block between two places comes to: the places where its inside starts and
ends, or why there is none. -/
inductive Cut (us : List Char) (start limit : Nat) : Scan (Nat × Nat) → Prop where
  | block {opening close : Nat} (opens : OpensAt us start limit opening)
      (closes : ClosesAt us limit opening close) : Cut us start limit (.ok (opening + 1, close))
  | expected (none : ∀ i, start ≤ i → i < limit → us[i]? ≠ some '\x7b') :
      Cut us start limit (fail start .expectedBlock)
  | unmatched {opening : Nat} (opens : OpensAt us start limit opening)
      (uneven : ∀ i, opening ≤ i → i < limit → braceCount us opening i ≠ 0) :
      Cut us start limit (fail opening .unmatchedBlock)

section

variable {us : List Char} {start limit : Nat}

theorem OpensAt.unique {here here' : Nat} (opens : OpensAt us start limit here)
    (opens' : OpensAt us start limit here') : here = here' := by
  rcases Nat.lt_trichotomy here here' with before | same | behind
  · exact absurd opens.brace (opens'.first here opens.behind before)
  · exact same
  · exact absurd opens'.brace (opens.first here' opens'.behind behind)

theorem ClosesAt.unique {opening here here' : Nat} (closes : ClosesAt us limit opening here)
    (closes' : ClosesAt us limit opening here') : here = here' := by
  rcases Nat.lt_trichotomy here here' with before | same | behind
  · exact absurd closes.even (closes'.first here closes.behind before)
  · exact same
  · exact absurd closes'.even (closes.first here' closes'.behind behind)

/-- Looking for a block has one outcome. -/
theorem Cut.unique {result result' : Scan (Nat × Nat)} (cut : Cut us start limit result)
    (cut' : Cut us start limit result') : result = result' := by
  cases cut with
  | block opens closes =>
    cases cut' with
    | block opens' closes' =>
      obtain rfl := opens.unique opens'
      rw [closes.unique closes']
    | expected none => exact absurd opens.brace (none _ opens.behind opens.inside)
    | unmatched opens' uneven =>
      obtain rfl := opens.unique opens'
      exact absurd closes.even (uneven _ closes.behind closes.inside)
  | expected none =>
    cases cut' with
    | expected => rfl
    | block opens => exact absurd opens.brace (none _ opens.behind opens.inside)
    | unmatched opens => exact absurd opens.brace (none _ opens.behind opens.inside)
  | unmatched opens uneven =>
    cases cut' with
    | block opens' closes =>
      obtain rfl := opens.unique opens'
      exact absurd closes.even (uneven _ closes.behind closes.inside)
    | expected none => exact absurd opens.brace (none _ opens.behind opens.inside)
    | unmatched opens' => rw [opens.unique opens']

end

/-! ## Cutting -/

section

variable {us : List Char} {start limit : Nat}

theorem getElem?_window {i : Nat} (behind : start ≤ i) (inside : i < limit) :
    ((us.take limit).drop start)[i - start]? = us[i]? := by
  rw [List.getElem?_drop, Nat.add_sub_of_le behind, List.getElem?_take_of_lt inside]

theorem no_brace (none : '\x7b' ∉ (us.take limit).drop start) :
    ∀ i, start ≤ i → i < limit → us[i]? ≠ some '\x7b' := by
  intro i behind inside is
  rw [← getElem?_window behind inside] at is
  exact none (List.mem_of_getElem? is)

section

variable {lead group : List Char}
  (window : (us.take limit).drop start = lead ++ '\x7b' :: group)
include window

theorem opening_reach : start + lead.length + 1 + group.length ≤ limit := by
  have length := congrArg List.length window
  rw [List.length_drop, List.length_take, List.length_append, List.length_cons] at length
  omega

theorem opensAt_window (none : '\x7b' ∉ lead) :
    OpensAt us start limit (start + lead.length) := by
  have reach := opening_reach window
  refine ⟨Nat.le_add_right _ _, by omega, ?_, fun i behind before is => ?_⟩
  · rw [← getElem?_window (Nat.le_add_right _ _) (by omega : _ < limit), window,
      Nat.add_sub_cancel_left]
    simp
  · rw [← getElem?_window behind (by omega : i < limit), window,
      List.getElem?_append_left (by omega)] at is
    exact none (List.mem_of_getElem? is)

/-- The group behind the opening brace, up to some place. -/
theorem group_window {i : Nat} (inside : i < limit) :
    (us.take (i + 1)).drop (start + lead.length) =
      ('\x7b' :: group).take (i + 1 - (start + lead.length)) := by
  have left : (us.take limit).drop (start + lead.length) = '\x7b' :: group := by
    rw [← List.drop_drop, window, List.drop_left' rfl]
  rw [← left, ← List.drop_take, List.take_take, Nat.min_eq_left inside]

theorem braceCount_window {i : Nat} (behind : start + lead.length ≤ i) (inside : i < limit) :
    braceCount us (start + lead.length) i =
      excess '\x7b' '\x7d' (group.take (i - (start + lead.length))) + 1 := by
  rw [braceCount, group_window window inside, Nat.sub_add_comm behind, List.take_succ_cons,
    excess_cons (by decide)]

/-- The count is zero for the first time where the group is closed. -/
theorem closesAt_window {n : Nat} (closed : closing '\x7b' '\x7d' 0 group = some n) :
    ClosesAt us limit (start + lead.length) (start + lead.length + 1 + n) := by
  obtain ⟨body, rest, split, rfl, balanced⟩ := balanced_of_closing (by decide) closed
  have reach := opening_reach window
  have length := congrArg List.length split
  rw [List.length_append, List.length_cons] at length
  refine ⟨by omega, by omega, ?_, fun i behind before even => ?_⟩
  · have taken : group.take (start + lead.length + 1 + body.length - (start + lead.length)) =
        body ++ ['\x7d'] := by
      rw [split, List.append_cons]
      exact List.take_left' (by simp; omega)
    have last : excess '\x7b' '\x7d' (body ++ ['\x7d']) = -1 := by
      rw [excess_append, balanced.excess_eq]
      decide
    rw [braceCount_window window (by omega) (by omega), taken, last]
    rfl
  · have within : group.take (i - (start + lead.length)) <+: body := by
      rw [split, List.take_append_of_le_length (by omega)]
      exact List.take_prefix _ _
    have still := balanced.excess_nonneg within
    rw [braceCount_window window behind (by omega)] at even
    omega

/-- The count is never zero where the group is not closed. -/
theorem uneven_window (unclosed : closing '\x7b' '\x7d' 0 group = none) :
    ∀ i, start + lead.length ≤ i → i < limit → braceCount us (start + lead.length) i ≠ 0 := by
  intro i behind inside even
  have never := closing_eq_none (by decide) unclosed _
    (List.take_prefix (i - (start + lead.length)) group)
  rw [braceCount_window window behind inside, excess] at even
  omega

/-- What is inside the group is balanced. -/
theorem inside_window {n : Nat} (closed : closing '\x7b' '\x7d' 0 group = some n) :
    Balanced '\x7b' '\x7d'
      ((us.take (start + lead.length + 1 + n)).drop (start + lead.length + 1)) := by
  obtain ⟨body, rest, split, rfl, balanced⟩ := balanced_of_closing (by decide) closed
  have reach := opening_reach window
  have length := congrArg List.length split
  rw [List.length_append, List.length_cons] at length
  have whole := @group_window us start limit lead group window (start + lead.length + body.length)
    (by omega)
  have size : start + lead.length + body.length + 1 - (start + lead.length) = body.length + 1 := by
    omega
  rw [size, List.take_succ_cons, split, List.take_left' rfl] at whole
  have inner := congrArg (List.drop 1) whole
  rw [List.drop_drop, List.drop_succ_cons, List.drop_zero] at inner
  rw [Nat.add_right_comm (start + lead.length) 1, inner]
  exact balanced

end

end

/-! ## Blocks by bytes and by characters -/

/-- The outcomes of looking for a block by byte offsets. -/
theorem block_outcomes {text : List Char} {start limit : Nat} (order : start ≤ limit)
    (reach : limit ≤ utf8Length text) :
    ('\x7b' ∉ ((units text).take limit).drop start ∧
      Bytewise.block text limit start = fail start .expectedBlock) ∨
    ∃ lead group, ((units text).take limit).drop start = lead ++ '\x7b' :: group ∧ '\x7b' ∉ lead ∧
      Bytewise.block text limit start =
        match closing '\x7b' '\x7d' 0 group with
        | none => fail (start + lead.length) .unmatchedBlock
        | some n => .ok (start + lead.length + 1, start + lead.length + 1 + n) := by
  have whole : (byteSlice text start limit : Scan _) = .ok (((units text).take limit).drop start) :=
    if_pos ⟨order, reach⟩
  rw [Bytewise.block, whole]
  simp only [bind, Except.bind]
  by_cases opens : '\x7b' ∈ ((units text).take limit).drop start
  · obtain ⟨lead, group, window, none⟩ := List.eq_append_cons_of_mem opens
    refine .inr ⟨lead, group, window, none, ?_⟩
    have inside := opening_reach window
    have rest : (byteSlice text (start + lead.length) limit : Scan _) = .ok ('\x7b' :: group) := by
      rw [byteSlice, if_pos ⟨by omega, reach⟩, ← List.drop_drop, window, List.drop_left' rfl]
    rw [window, Bytewise.findIdx?_middle
      (fun c mem => decide_eq_false (ne_of_mem_of_not_mem mem none)) (decide_eq_true rfl)]
    dsimp only
    rw [rest]
    dsimp only
    rw [Bytewise.matching.eq_def]
    dsimp only
    rw [if_pos rfl, matching_eq_closing]
    cases closing '\x7b' '\x7d' 0 group with
    | none => rfl
    | some n =>
      show (.ok (_, start + lead.length + (n + 1)) : Scan _) = .ok (_, start + lead.length + 1 + n)
      rw [Nat.add_assoc _ 1 n, Nat.add_comm 1 n]
  · refine .inl ⟨opens, ?_⟩
    rw [List.findIdx?_eq_none_iff.2 fun c mem => decide_eq_false (ne_of_mem_of_not_mem mem opens)]

/-- The places where the inside of a block starts and ends. -/
def Block.places {n : Nat} (b : Block n) : Nat × Nat :=
  (b.body.val.start, b.body.val.start + b.body.val.size)

/-- A block is looked for between two places, by a count of braces that is not allowed below zero.
The outcome is the one that `Cut` says: in particular, a block is found exactly if the count from
the first opening brace on comes to zero. What is inside is balanced. -/
structure FindsFirst (us : List Char) (start limit : Nat) (result : Scan (Nat × Nat)) : Prop where
  outcome : ∀ r, result = r ↔ Cut us start limit r
  found : (∃ inside, result = .ok inside) ↔ ∃ opening i, OpensAt us start limit opening ∧
    opening ≤ i ∧ i < limit ∧ braceCount us opening i = 0
  faultless : ∀ x, result ≠ .error (.fault x)
  balanced : ∀ first last, result = .ok (first, last) →
    Balanced '\x7b' '\x7d' ((us.take last).drop first)

section

variable {us : List Char} {start limit : Nat}

theorem FindsFirst.of_cut {result : Scan (Nat × Nat)} (cut : Cut us start limit result)
    (balanced : ∀ first last, result = .ok (first, last) →
      Balanced '\x7b' '\x7d' ((us.take last).drop first)) : FindsFirst us start limit result where
  outcome r := ⟨fun is => is ▸ cut, cut.unique⟩
  found := by
    constructor
    · rintro ⟨inside, rfl⟩
      cases cut with
      | block opens closes => exact ⟨_, _, opens, closes.behind, closes.inside, closes.even⟩
    · rintro ⟨opening, i, opens, behind, inside, even⟩
      cases cut with
      | block => exact ⟨_, rfl⟩
      | expected none => exact absurd opens.brace (none _ opens.behind opens.inside)
      | unmatched opens' uneven =>
        obtain rfl := opens.unique opens'
        exact absurd even (uneven i behind inside)
  faultless x is := by
    subst is
    cases cut
  balanced := balanced

theorem braceCount_opening {opening : Nat} (opens : OpensAt us start limit opening) :
    braceCount us opening opening = 1 := by
  obtain ⟨here, is⟩ := List.getElem?_eq_some_iff.1 opens.brace
  have single : (us.take (opening + 1)).drop opening = ['\x7b'] := by
    rw [List.drop_take, Nat.add_sub_cancel_left, List.drop_eq_getElem_cons here, is,
      List.take_succ_cons, List.take_zero]
  rw [braceCount, single]
  decide

/-- The inside of a block is between its braces. -/
theorem Cut.inside {first last : Nat} (cut : Cut us start limit (.ok (first, last))) :
    start < first ∧ first ≤ last ∧ last < limit := by
  cases cut with
  | block opens closes =>
    have apart : _ ≠ last := fun same => by
      have even := closes.even
      rw [← same, braceCount_opening opens] at even
      exact absurd even (by decide)
    have behind := closes.behind
    exact ⟨Nat.lt_succ_of_le opens.behind, by omega, closes.inside⟩

end

theorem block_findsFirst {text : List Char} {start limit : Nat} (order : start ≤ limit)
    (reach : limit ≤ utf8Length text) :
    FindsFirst (units text) start limit (Bytewise.block text limit start) := by
  rcases block_outcomes order reach with ⟨none, is⟩ | ⟨lead, group, window, none, is⟩
  · rw [is]
    exact .of_cut (.expected (no_brace none)) nofun
  · cases closed : closing '\x7b' '\x7d' 0 group with
    | none =>
      rw [is, closed]
      exact .of_cut (.unmatched (opensAt_window window none) (uneven_window window closed)) nofun
    | some n =>
      rw [is, closed]
      refine .of_cut (.block (opensAt_window window none) (closesAt_window window closed)) ?_
      rintro _ _ ⟨⟩
      exact inside_window window closed

theorem Span.Within.window {text : List Char} {s : Span} (within : s.Within text) :
    (text.take (s.start + s.size)).drop s.start = s.chars := by
  obtain ⟨rest, split⟩ := within.2
  rw [List.drop_take, Nat.add_sub_cancel_left, ← split]
  exact List.take_left' rfl

theorem Span.block_findsFirst {text : List Char} {s : Span} (within : s.Within text) :
    FindsFirst text s.start (s.start + s.size) (lift (s.block.map Block.places)) := by
  rcases block_cases s with ⟨none, is⟩ |
    ⟨lead, group, chars, none, ⟨closed, is⟩ | ⟨n, b, closed, is, body, -⟩⟩
  · rw [is]
    exact .of_cut (.expected (no_brace (within.window ▸ none))) nofun
  · have window := within.window.trans chars
    rw [is]
    exact .of_cut (.unmatched (opensAt_window window none) (uneven_window window closed)) nofun
  · have window := within.window.trans chars
    have places : b.places = (s.start + lead.length + 1, s.start + lead.length + 1 + n) := by
      have left : (s.drop (lead.length + 1)).chars = group := by
        rw [chars_drop, chars]
        simp
      have size : ((s.drop (lead.length + 1)).take n).size = n := by
        show (List.take n (s.drop _).chars).length = n
        rw [left, List.length_take_of_le (Nat.le_of_lt (closing_lt closed))]
      rw [Block.places, body, size]
      rfl
    rw [is]
    show FindsFirst text s.start (s.start + s.size) (.ok b.places)
    rw [places]
    refine .of_cut (.block (opensAt_window window none) (closesAt_window window closed)) ?_
    rintro _ _ ⟨⟩
    exact inside_window window closed

/-! ## Bytes and characters -/

theorem byteSlice_append {ε : Type} {front : List Char} {start stop : Nat} (back : List Char)
    (reach : stop ≤ utf8Length front) :
    (byteSlice (front ++ back) start stop : Except (Stop ε) _) = byteSlice front start stop := by
  have reach' : stop ≤ utf8Length (front ++ back) := by
    rw [utf8Length_append]
    exact Nat.le_add_right_of_le reach
  unfold byteSlice
  rw [units_append, List.take_append_of_le_length (by rwa [length_units])]
  simp only [reach, reach', and_true]

theorem offset_append {front : List Char} {n : Nat} (back : List Char) (le : n ≤ front.length) :
    offset (front ++ back) n = offset front n := by
  rw [offset, offset, List.take_append_of_le_length le]

/-- What is behind the end of a region does not count. -/
theorem bytewise_block_append {front : List Char} {stop : Nat} (back : List Char)
    (reach : stop ≤ utf8Length front) (pos : Nat) :
    Bytewise.block (front ++ back) stop pos = Bytewise.block front stop pos := by
  simp only [Bytewise.block, byteSlice_append back reach]

theorem told_append {α β : Type} {front back : List Char} {f g : α → β} {x : Except Failure α}
    (failed : ∀ e, x = .error e → e.position ≤ front.length) (ok : ∀ a, x = .ok a → f a = g a) :
    told (front ++ back) f x = told front g x := by
  cases x with
  | error e => rw [told, told, offset_append back (failed e rfl)]
  | ok a => rw [told, told, ok a rfl]

/-- A block is inside its region, and what is behind it ends with the region. -/
theorem block_inside {s : Span} {b : Block s.size} (read : s.block = .ok b) :
    s.start < b.body.val.start ∧ b.after.val.start = b.body.val.start + b.body.val.size + 1 ∧
      b.after.val.start + b.after.val.size = s.start + s.size := by
  obtain ⟨lead, -, chars, body, after⟩ := block_place read
  have length : s.size = lead.length + (b.body.val.size + (b.after.val.size + 1) + 1) := by
    show s.chars.length = _
    rw [chars, List.length_append, List.length_cons, List.length_append, List.length_cons]
    rfl
  have after' : b.after.val.start = b.body.val.start + b.body.val.size + 1 := after
  exact ⟨by omega, after', by omega⟩

/-- The block of a region by byte offsets is the one that the reader of characters cuts. -/
theorem block_within {text : List Char} {s : Span} (within : s.Within text) :
    Bytewise.block text (offset text (s.start + s.size)) (offset text s.start) =
      told text (ends text) s.block := by
  obtain ⟨start, behind, split⟩ := within
  -- What is behind the region may go on with a mark of a comment, so it is left away.
  have before : (text.take s.start).length = s.start := List.length_take_of_le start
  have whole : text = (text.take s.start ++ s.chars) ++ behind := by
    rw [List.append_assoc, split, List.take_append_drop]
  generalize text.take s.start = lead at before whole
  have length : (lead ++ s.chars).length = s.start + s.size := by
    rw [List.length_append, before, Span.size]
  have region : Region (lead ++ s.chars) (utf8Length (lead ++ s.chars)) s :=
    ⟨lead, [], by rw [List.append_nil], before.symm, utf8Length_append _ _, nofun⟩
  have stop : offset text (s.start + s.size) = utf8Length (lead ++ s.chars) := by
    rw [whole, ← length, offset_left]
  rw [stop, whole, offset_append behind (by omega), bytewise_block_append behind (Nat.le_refl _),
    block_eq region]
  refine (told_append (fun e is => ?_) (fun b is => ?_)).symm
  · rcases block_cases s with ⟨_, is'⟩ | ⟨first, inside, chars, -, ⟨-, is'⟩ | ⟨_, _, -, is', -⟩⟩
    · cases is.symm.trans is'
      rw [length]
      exact Nat.le_add_right _ _
    · cases is.symm.trans is'
      rw [length, Span.size, chars, List.length_append]
      exact Nat.add_le_add_left (Nat.le_add_right _ _) _
    · cases is.symm.trans is'
  · obtain ⟨-, place, reach⟩ := block_inside is
    rw [ends, ends, offset_append behind (by rw [length]; omega),
      offset_append behind (by rw [length]; omega)]

/-! ## The first block is the one that is found -/

/-- Wherever a block is looked for in a text, by bytes or by characters, the first one is found or
it is said why there is none. A block that is found inside of it is strictly inside of it. -/
theorem finds_first_block (text : List Char) :
    (∀ start limit, start ≤ limit → limit ≤ utf8Length text →
      FindsFirst (units text) start limit (Bytewise.block text limit start) ∧
      ∀ first last, Bytewise.block text limit start = .ok (first, last) →
        start < first ∧ first ≤ last ∧ last < limit ∧
        ∀ start' limit' first' last', first ≤ start' → start' ≤ limit' → limit' ≤ last →
          Bytewise.block text limit' start' = .ok (first', last') →
            first < first' ∧ first' ≤ last' ∧ last' < last) ∧
    ∀ s : Span, s.Within text →
      FindsFirst text s.start (s.start + s.size) (lift (s.block.map Block.places)) ∧
      Bytewise.block text (offset text (s.start + s.size)) (offset text s.start) =
        told text (ends text) s.block ∧
      ∀ b, s.block = .ok b → b.body.val.Within text ∧ b.after.val.Within text ∧
        b.after.val.start = b.places.2 + 1 ∧
        b.after.val.start + b.after.val.size = s.start + s.size := by
  constructor
  · intro start limit order reach
    have finds := block_findsFirst order reach
    refine ⟨finds, fun first last is => ?_⟩
    obtain ⟨behind, apart, inside⟩ := ((finds.outcome _).1 is).inside
    refine ⟨behind, apart, inside, fun start' limit' first' last' behind' order' inside' is' => ?_⟩
    have finds' := block_findsFirst order' (by omega : limit' ≤ utf8Length text)
    obtain ⟨behind'', apart', inside''⟩ := ((finds'.outcome _).1 is').inside
    exact ⟨Nat.lt_of_le_of_lt behind' behind'', apart', Nat.lt_of_lt_of_le inside'' inside'⟩
  · intro s within
    refine ⟨s.block_findsFirst within, block_within within, fun b is => ?_⟩
    obtain ⟨body, after⟩ := within_block within is
    obtain ⟨-, place, reach⟩ := block_inside is
    exact ⟨body, after, place, reach⟩

/-- Two blocks, one inside the other, behind a character of two bytes. -/
def nestedText : List Char := "é\x7ba\x7bb\x7dc\x7d \x7d".toList

/-- Looking for a block may start inside a character. -/
theorem nested_first_block :
    FindsFirst (units nestedText) 1 11 (.ok (3, 8)) ∧ (3 < 5 ∧ 5 ≤ 6 ∧ 6 < 8) ∧
    FindsFirst nestedText 0 10 (.ok (2, 7)) := by
  obtain ⟨bytes, characters⟩ := finds_first_block nestedText
  have outer : Bytewise.block nestedText 11 1 = .ok (3, 8) := by decide +kernel
  have inner : Bytewise.block nestedText 8 3 = .ok (5, 6) := by decide +kernel
  have cut : lift ((Span.whole nestedText).block.map Block.places) = .ok (2, 7) := by
    decide +kernel
  obtain ⟨finds, inside⟩ := bytes 1 11 (by decide) (by decide)
  refine ⟨outer ▸ finds, ?_, ?_⟩
  · exact (inside 3 8 outer).2.2.2 3 8 5 6 (by decide) (by decide) (by decide) inner
  · exact cut ▸ (characters (.whole nestedText) ⟨Nat.zero_le _, List.prefix_rfl⟩).1

/-- A shader whose first brace is never matched, with a pass in a block behind that brace. -/
def unevenText : String :=
  "Shader \"Rock\"\n\x7b\n\x7b Pass \x7b HLSLPROGRAM\n" ++
    "#pragma vertex V\n#pragma fragment P\nENDHLSL \x7d \x7d"

/-- A block that comes later is not taken in place of one that is not closed. -/
theorem later_block_not_taken :
    Definition.parse unevenText = .error ⟨2, .unmatchedBlock⟩ ∧
    ¬ ∀ (text : List Char) (start limit : Nat), start ≤ limit → limit ≤ utf8Length text →
      ((∃ inside, Bytewise.block text limit start = .ok inside) ↔
        ∃ opening i, start ≤ opening ∧ opening ≤ i ∧ i < limit ∧
          (units text)[opening]? = some '\x7b' ∧ braceCount (units text) opening i = 0) := by
  refine ⟨by decide +kernel, fun all => ?_⟩
  have later := (all unevenText.toList 13 (utf8Length unevenText.toList) (by decide +kernel)
    (Nat.le_refl _)).2 ⟨16, utf8Length unevenText.toList - 1, by decide +kernel⟩
  have none : Bytewise.block unevenText.toList (utf8Length unevenText.toList) 13 =
      fail 14 .unmatchedBlock := by decide +kernel
  obtain ⟨inside, is⟩ := later
  rw [none] at is
  cases is

end SurfaceShading.Grammar
