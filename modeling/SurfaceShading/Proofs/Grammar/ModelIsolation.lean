/-
  The shading model of a shader by itself. Reading goes on behind the block of a model whatever
  stands in it, so two texts that differ inside such a block only are both read or both refused,
  and what is read of them differs in the model only (`Definition.parse_isolated`).

  The keyword loop takes the same turns up to the block, since a turn does not depend on what
  follows later (`turnOf_append`), and from there on the rest of both texts is the same.
-/
import SurfaceShading.Proofs.Grammar.Declarations
import SurfaceShading.Proofs.Grammar.PropertyNames

namespace SurfaceShading

/-- What a text declares apart from the shading model. -/
def Definition.withoutModel (d : Definition) : Definition := { d with model := none }

namespace Grammar

/-! ## Replacing a balanced part -/

/-- One balanced part of a balanced text can be put in place of another. -/
theorem Balanced.replace {opener closer : Char} {before c₁ c₂ after : List Char}
    (all : Balanced opener closer (before ++ c₁ ++ after)) (old : Balanced opener closer c₁)
    (new : Balanced opener closer c₂) : Balanced opener closer (before ++ c₂ ++ after) where
  never part is := by
    rw [List.append_assoc] at is
    rcases List.prefix_or_prefix_of_prefix is (List.prefix_append before _) with within | beyond
    · exact all.never part (within.trans ⟨c₁ ++ after, by rw [List.append_assoc]⟩)
    obtain ⟨inner, rfl⟩ := beyond
    rw [List.prefix_append_right_inj] at is
    have start := all.never before ⟨c₁ ++ after, by rw [List.append_assoc]⟩
    rcases List.prefix_or_prefix_of_prefix is (List.prefix_append c₂ _) with within | beyond
    · rw [List.count_append, List.count_append]
      exact Nat.add_le_add start (new.never inner within)
    · obtain ⟨rest, rfl⟩ := beyond
      have part := all.never (before ++ c₁ ++ rest)
        (List.prefix_append_right_inj _ |>.2 (List.prefix_append_right_inj c₂ |>.1 is))
      simp only [List.count_append, old.all, new.all] at part ⊢
      omega
  all := by
    have count := all.all
    simp only [List.count_append, old.all, new.all] at count ⊢
    omega

/-- A group that is opened in a balanced text is closed in it. -/
theorem Balanced.closed {opener closer : Char} (apart : opener ≠ closer)
    {before inside after content rest : List Char}
    (all : Balanced opener closer (before ++ opener :: inside))
    (balanced : Balanced opener closer content)
    (text : inside ++ closer :: after = content ++ closer :: rest) :
    ∃ later, inside = content ++ closer :: later ∧ rest = later ++ closer :: after := by
  -- What is open inside would be closed by no more than `content` closes.
  have longer : ¬ inside <+: content := fun is => by
    have start := all.never before (List.prefix_append _ _)
    have part := balanced.never inside is
    have count := all.all
    rw [List.count_append, List.count_append, List.count_cons_of_ne apart,
      List.count_cons_self] at count
    omega
  rcases List.append_eq_append_iff.1 text with ⟨more, rfl, -⟩ | ⟨more, rfl, left⟩
  · exact absurd (List.prefix_append inside more) longer
  cases more with
  | nil => exact absurd (by simp) longer
  | cons c later =>
    obtain ⟨rfl, rfl⟩ := List.cons.inj left
    exact ⟨later, rfl, rfl⟩

/-! ## Looking for the shader -/

section

variable {s s' : Span} {u v x y : List Char} {name : List Char} {rest : Span}

theorem Span.Leads.ne_nil {lead : List Char} (leads : s.Leads lead rest)
    (shorter : rest.size < s.size) : lead ≠ [] := by
  rintro rfl
  rw [Span.size, Span.size, leads.chars] at shorter
  exact Nat.lt_irrefl _ shorter

theorem Span.Leads.next {t : Shorter s.size} {lead : List Char} (leads : t.val.Leads lead rest)
    (next : s.next.rest? = some t) : ∃ lead, lead ≠ [] ∧ s.Leads lead rest := by
  obtain ⟨lead', leads'⟩ := leads_next next
  exact ⟨_, by simp [leads'.ne_nil t.property], leads'.trans leads⟩

theorem leads_shader (found : findShader s = .ok (name, rest)) :
    ∃ lead, lead ≠ [] ∧ s.Leads lead rest := by
  fun_induction findShader s with
  | case1 => cases found
  | case2 => cases found
  | case3 s t next ih =>
    obtain ⟨lead, -, leads⟩ := ih found
    exact leads.next (by rw [next]; rfl)
  | case4 s _ _ t next ih =>
    obtain ⟨lead, -, leads⟩ := ih found
    exact leads.next (by rw [next]; rfl)
  | case5 s _ t name' after quoted next =>
    cases found
    obtain ⟨lead, leads⟩ := leads_quoted quoted
    exact leads.next (by rw [next]; rfl)
  | case6 => cases found
  | case7 s _ _ t next _ ih =>
    obtain ⟨lead, -, leads⟩ := ih found
    exact leads.next (by rw [next]; rfl)

theorem next_append {p : Piece} (chars : s.chars = u ++ x) (chars' : s'.chars = u ++ y)
    (piece : s.next.piece = p.before x) (leaves : p.Leaves) : s'.next.piece = p.before y := by
  rw [next_unplaced, chars] at piece
  rw [next_unplaced, chars', pieceOf_append piece leaves y]

/-- A shader that is found does not depend on what follows it. -/
theorem findShader_append (chars : s.chars = u ++ x) (chars' : s'.chars = u ++ y)
    (found : findShader s = .ok (name, rest)) (left : rest.chars = v ++ x) :
    ∃ rest', findShader s' = .ok (name, rest') ∧ rest'.chars = v ++ y := by
  -- What is left behind a piece that comes before the name has the name in it.
  have behind {t : Span} {lead : List Char} (nonempty : lead ≠ []) (leads : t.Leads lead rest) :
      ∃ r, r ≠ [] ∧ t.chars = r ++ x :=
    ⟨lead ++ v, List.append_ne_nil_of_left_ne_nil nonempty v, by
      rw [leads.chars, left, List.append_assoc]⟩
  fun_induction findShader s generalizing s' u with
  | case1 => cases found
  | case2 => cases found
  | case3 s t next ih =>
    obtain ⟨lead, nonempty, leads⟩ := leads_shader found
    obtain ⟨r, more, here⟩ := behind nonempty leads
    obtain ⟨t', next', chars'⟩ := string_of_piece (next_append (p := .string r) chars chars'
      (by rw [next]; exact congrArg Piece.string here) more)
    rw [findShader.eq_def, next']
    exact ih here chars' found
  | case4 s _ c t next ih =>
    obtain ⟨lead, nonempty, leads⟩ := leads_shader found
    obtain ⟨r, more, here⟩ := behind nonempty leads
    obtain ⟨_, t', next', chars'⟩ := other_of_piece (next_append (p := .other c r) chars chars'
      (by rw [next]; exact congrArg (Piece.other c) here) more)
    rw [findShader.eq_def, next']
    exact ih here chars' found
  | case5 s _ t name' after quoted next =>
    cases found
    obtain ⟨lead, leads⟩ := leads_quoted quoted
    obtain ⟨r, more, here⟩ := behind (leads.ne_nil after.property) leads
    obtain ⟨_, t', next', chars'⟩ := name_of_piece (next_append (p := .name "Shader" r) chars
      chars' (by rw [next]; exact congrArg (Piece.name _) here) more)
    have read := quoted_unplaced t.val
    rw [quoted, here] at read
    have read' := quoteOf_append (read.symm.trans (congrArg (fun r => some (name, r)) left)) y
    rw [← chars', ← quoted_unplaced] at read'
    obtain ⟨⟨_, after'⟩, ok, both⟩ := Option.map_eq_some_iff.1 read'
    obtain ⟨rfl, left'⟩ := Prod.mk.inj both
    rw [findShader.eq_def, next']
    dsimp only
    rw [if_pos rfl, ok_of_toOption ok]
    exact ⟨_, rfl, left'⟩
  | case6 => cases found
  | case7 s _ text t next other ih =>
    obtain ⟨lead, nonempty, leads⟩ := leads_shader found
    obtain ⟨r, more, here⟩ := behind nonempty leads
    obtain ⟨_, t', next', chars'⟩ := name_of_piece (next_append (p := .name text r) chars chars'
      (by rw [next]; exact congrArg (Piece.name text) here) more)
    rw [findShader.eq_def, next']
    dsimp only
    rw [if_neg other]
    exact ih here chars' found

end

/-! ## The turns up to the model -/

/-- Where the inside of the shading model starts whose keyword comes next. -/
def Span.modelOpening? (s : Span) : Option Nat :=
  match s.next with
  | .name _ "ShadingModel" rest =>
    if '\x7b' ∈ rest.val.chars then
      some (rest.val.start + (rest.val.chars.takeWhile (· ≠ '\x7b')).length + 1)
    else none
  | _ => none

/-- Where the insides of the shading models start that the loop comes to. -/
def modelOpenings (s : Span) : List Nat :=
  match _turn : s.turn with
  | .finished => []
  | .failed => s.modelOpening?.toList
  | .goesOn _ rest => s.modelOpening?.toList ++ modelOpenings rest
  termination_by s.size
  decreasing_by exact turn_shorter _turn

/-- Where the insides of the shading models of a text start. -/
def modelPlaces (text : List Char) : List Nat :=
  (shaderBody? text).toList.flatMap modelOpenings

/-- What is read of a shader apart from its model. -/
def Draft.apart (draft : Draft) : Draft := { draft with model := none, dropped := [] }

/-- The same, if nothing else is malformed. -/
def told (read : Draft × Option Failure) : Option Draft :=
  match read.2 with
  | none => some read.1.apart
  | some _ => none

section

variable {s s' : Span} {draft draft' : Draft}

theorem apart_addModel (draft : Draft) (block : Span) :
    (draft.addModel block).apart = draft.apart := by
  unfold Draft.addModel
  split <;> rfl

theorem apart_add {R : Type} {f : Span → R} {declaration declaration' : Option (Declaration Span)}
    (same : declaration.map (Declaration.map f) = declaration'.map (Declaration.map f))
    (alike : draft.apart = draft'.apart) :
    (declaration.elim draft draft.add).apart = (declaration'.elim draft' draft'.add).apart := by
  cases declaration with
  | none =>
    cases declaration' with
    | none => exact alike
    | some => cases same
  | some found =>
    cases declaration' with
    | none => cases same
    | some found' =>
      have same := Option.some.inj same
      cases found with
      | queue queue =>
        cases found' with
        | queue queue' =>
          obtain rfl := Declaration.queue.inj same
          exact congrArg (fun d : Draft => { d with queue := some queue }) alike
        | _ => cases same
      | properties _ listed =>
        cases found' with
        | properties _ listed' =>
          obtain ⟨-, rfl⟩ := Declaration.properties.inj same
          exact congrArg (fun d : Draft => { d with properties := d.properties ++ listed }) alike
        | _ => cases same
      | model block =>
        cases found' with
        | model block' =>
          exact (apart_addModel draft block).trans (alike.trans (apart_addModel draft' block').symm)
        | _ => cases same
      | pass _ read =>
        cases found' with
        | pass _ read' =>
          obtain ⟨-, rfl⟩ := Declaration.pass.inj same
          exact congrArg (fun d : Draft => { d with passes := d.passes ++ [read] }) alike
        | _ => cases same

/-- Two turns that go on with declarations that differ in the insides of blocks only. -/
theorem told_goesOn {R : Type} {f : Span → R} {rest rest' : Span}
    {declaration declaration' : Option (Declaration Span)}
    (turn : s.turn = .goesOn declaration rest) (turn' : s'.turn = .goesOn declaration' rest')
    (same : declaration.map (Declaration.map f) = declaration'.map (Declaration.map f))
    (alike : draft.apart = draft'.apart)
    (later : ∀ draft draft', draft.apart = draft'.apart →
      told (readBody draft rest) = told (readBody draft' rest')) :
    told (readBody draft s) = told (readBody draft' s') := by
  have step := readBody_turn draft s
  have step' := readBody_turn draft' s'
  rw [turn] at step
  rw [turn'] at step'
  rw [step.2, step'.2]
  exact later _ _ (apart_add same alike)

/-- What is read does not depend on the place, apart from the model. -/
theorem told_congr (same : s.chars = s'.chars) (alike : draft.apart = draft'.apart) :
    told (readBody draft s) = told (readBody draft' s') := by
  induction size : s.size using Nat.strong_induction_on generalizing s s' draft draft' with
  | _ size ih =>
    subst size
    have turns : s.turn.map Span.chars = s'.turn.map Span.chars := by
      rw [turn_unplaced, turn_unplaced, same]
    have step := readBody_turn draft s
    have step' := readBody_turn draft' s'
    cases turn : s.turn with
    | finished =>
      cases turn' : s'.turn with
      | finished =>
        rw [turn] at step
        rw [turn'] at step'
        rw [step, step']
        exact congrArg some alike
      | _ =>
        rw [turn, turn'] at turns
        cases turns
    | failed =>
      cases turn' : s'.turn with
      | failed =>
        rw [turn] at step
        rw [turn'] at step'
        obtain ⟨failure, is⟩ := step
        obtain ⟨failure', is'⟩ := step'
        rw [is, is']
        rfl
      | _ =>
        rw [turn, turn'] at turns
        cases turns
    | goesOn declaration rest =>
      cases turn' : s'.turn with
      | goesOn declaration' rest' =>
        rw [turn, turn'] at turns
        obtain ⟨same, rest_eq⟩ := Turn.goesOn.inj turns
        exact told_goesOn turn turn' same alike fun _ _ alike =>
          ih _ (turn_shorter turn) rest_eq alike rfl
      | _ =>
        rw [turn, turn'] at turns
        cases turns

theorem modelOpening?_eq_some {n : Nat} (is : s.modelOpening? = some n) :
    ∃ position rest lead inside, s.next = .name position "ShadingModel" rest ∧
      rest.val.chars = lead ++ '\x7b' :: inside ∧ '\x7b' ∉ lead ∧
        n = rest.val.start + lead.length + 1 := by
  unfold Span.modelOpening? at is
  split at is
  · next position rest next =>
    split at is
    · next opens =>
      obtain ⟨lead, inside, chars, none⟩ := List.eq_append_cons_of_mem opens
      rw [chars, Text.takeWhile_ne_append none inside] at is
      exact ⟨position, rest, lead, inside, next, chars, none, (Option.some.inj is).symm⟩
    · cases is
  · cases is

/-- A model starts inside the region, behind an opening brace. -/
theorem modelOpening_place {n : Nat} (is : s.modelOpening? = some n) : ∃ before inside,
    s.chars = before ++ '\x7b' :: inside ∧ n = s.start + before.length + 1 := by
  obtain ⟨position, rest, lead, inside, next, chars, -, rfl⟩ := modelOpening?_eq_some is
  obtain ⟨lead', leads⟩ := @leads_next s rest (by rw [next]; rfl)
  refine ⟨lead' ++ lead, inside, by rw [leads.chars, chars, List.append_assoc], ?_⟩
  rw [leads.start, List.length_append, Nat.add_assoc s.start]

theorem mem_modelOpenings {n : Nat} (mem : n ∈ modelOpenings s) : ∃ before inside,
    s.chars = before ++ '\x7b' :: inside ∧ n = s.start + before.length + 1 := by
  fun_induction modelOpenings s with
  | case1 => cases mem
  | case2 s turn => exact modelOpening_place (Option.mem_toList.1 mem)
  | case3 s declaration rest turn ih =>
    rcases List.mem_append.1 mem with here | later
    · exact modelOpening_place (Option.mem_toList.1 here)
    · obtain ⟨before, inside, chars, rfl⟩ := ih later
      obtain ⟨lead, leads⟩ := leads_turn turn
      refine ⟨lead ++ before, inside, by rw [leads.chars, chars, List.append_assoc], ?_⟩
      rw [leads.start, List.length_append, Nat.add_assoc s.start]

/-- The turn of a model whose block is at hand. -/
theorem turn_model {lead content rest : List Char}
    (next : s.next.piece = .name "ShadingModel" (lead ++ '\x7b' :: (content ++ '\x7d' :: rest)))
    (none : '\x7b' ∉ lead) (balanced : Balanced '\x7b' '\x7d' content) :
    ∃ block after, s.turn = .goesOn (some (.model block)) after ∧ after.chars = rest := by
  have turn : turnOf s.chars = .goesOn (some (.model content)) rest := by
    rw [next_unplaced] at next
    rw [turnOf, next]
    simp only
    rw [declareOf, blockOf_eq_some.2 ⟨lead, none, balanced, rfl⟩]
  obtain ⟨declaration, after, turn', same, left⟩ := turn_of_chars turn
  obtain ⟨found, rfl, is⟩ := Option.map_eq_some_iff.1 same
  cases found with
  | model block => exact ⟨block, after, turn', left⟩
  | _ => cases is

/-- A place in a region and the same place in what is left of it. -/
theorem Span.Leads.split {t : Span} {lead before before' inside inside' : List Char}
    (leads : s.Leads lead t) (chars : s.chars = before ++ '\x7b' :: inside)
    (chars' : t.chars = before' ++ '\x7b' :: inside')
    (place : s.start + before.length + 1 = t.start + before'.length + 1) :
    before = lead ++ before' ∧ inside' = inside := by
  have length : before.length = (lead ++ before').length := by
    rw [leads.start] at place
    rw [List.length_append]
    omega
  have both : before ++ '\x7b' :: inside = (lead ++ before') ++ '\x7b' :: inside' := by
    rw [← chars, leads.chars, chars', List.append_assoc]
  obtain ⟨first, second⟩ := List.append_inj both length
  exact ⟨first, (List.cons.inj second).2.symm⟩

section

variable {before c₁ c₂ rest : List Char}
  (chars : s.chars = before ++ '\x7b' :: (c₁ ++ '\x7d' :: rest))
  (chars' : s'.chars = before ++ '\x7b' :: (c₂ ++ '\x7d' :: rest))
  (balanced : Balanced '\x7b' '\x7d' c₁) (balanced' : Balanced '\x7b' '\x7d' c₂)
  (alike : draft.apart = draft'.apart)

include chars chars' balanced balanced' alike

/-- Regions that differ inside the block of a model that comes next are read alike. -/
theorem told_opening (opens : s.modelOpening? = some (s.start + before.length + 1)) :
    told (readBody draft s) = told (readBody draft' s') := by
  obtain ⟨position, t, lead, inside, next, at', none, place⟩ := modelOpening?_eq_some opens
  obtain ⟨lead', leads⟩ := @leads_next s t (by rw [next]; rfl)
  obtain ⟨rfl, rfl⟩ := leads.split chars at' place
  have piece : s.next.piece =
      .name "ShadingModel" (lead ++ '\x7b' :: (c₁ ++ '\x7d' :: rest)) := by
    rw [next, ← at']
    rfl
  have piece' : s'.next.piece =
      .name "ShadingModel" (lead ++ '\x7b' :: (c₂ ++ '\x7d' :: rest)) := by
    have opened := @next_append s s' (lead' ++ lead ++ ['\x7b']) (c₁ ++ '\x7d' :: rest)
      (c₂ ++ '\x7d' :: rest) (.name "ShadingModel" (lead ++ ['\x7b'])) (by simp [chars])
      (by simp [chars']) (by simp [piece, Piece.before]) (by simp [Piece.Leaves])
    simpa [Piece.before] using opened
  obtain ⟨block, after, turn, left⟩ := turn_model piece none balanced
  obtain ⟨block', after', turn', left'⟩ := turn_model piece' none balanced'
  exact told_goesOn (f := fun _ => ()) turn turn' rfl alike fun _ _ alike =>
    told_congr (left.trans left'.symm) alike

/-- Regions that differ inside the block of a model that the loop comes to are read alike. -/
theorem told_isolated (reached : s.start + before.length + 1 ∈ modelOpenings s) :
    told (readBody draft s) = told (readBody draft' s') := by
  -- Up to the model both loops take the same turns.
  fun_induction modelOpenings s generalizing s' before draft draft' with
  | case1 => cases reached
  | case2 s turn =>
    exact told_opening chars chars' balanced balanced' alike (Option.mem_toList.1 reached)
  | case3 s declaration t turn ih =>
    rcases List.mem_append.1 reached with next | later
    · exact told_opening chars chars' balanced balanced' alike (Option.mem_toList.1 next)
    · obtain ⟨before', inside, at', place⟩ := mem_modelOpenings later
      obtain ⟨lead, leads⟩ := leads_turn turn
      obtain ⟨rfl, rfl⟩ := leads.split chars at' place
      have here : turnOf ((lead ++ before' ++ ['\x7b']) ++ (c₁ ++ '\x7d' :: rest)) =
          .goesOn (declaration.map (Declaration.map Span.chars))
            ((before' ++ ['\x7b']) ++ (c₁ ++ '\x7d' :: rest)) := by
        have unplaced := turn_unplaced s
        rw [turn, chars] at unplaced
        simpa [Turn.map, at'] using unplaced.symm
      have there := turnOf_append here (by simp) (c₂ ++ '\x7d' :: rest)
      obtain ⟨declaration', t', turn', same, left⟩ :=
        @turn_of_chars s' _ _ (by simpa [chars'] using there)
      refine told_goesOn turn turn' same.symm alike fun draft draft' alike => ?_
      exact ih at' left alike (place ▸ later)

end

end

/-! ## Whole texts -/

/-- What a text declares apart from the model comes from what its body tells. -/
theorem read_told {text name : List Char} {rest : Span} {block : Block rest.size}
    (found : findShader (.whole text) = .ok (name, rest)) (cut : rest.block = .ok block) :
    (read text).result.toOption.map Definition.withoutModel =
      if (Text.trim name).isEmpty then none
      else (told (readBody .empty block.body)).bind fun draft =>
        if draft.passes.isEmpty then none else some (draft.finish (String.ofList name)) := by
  unfold read
  rw [found]
  dsimp only
  split
  · rfl
  rw [cut]
  dsimp only
  rcases readBody .empty block.body with ⟨draft, _ | failure⟩
  · show _ = if draft.passes.isEmpty then none else _
    dsimp only
    split <;> rfl
  · rfl

theorem read_isolated {p q c₁ c₂ : List Char} (balanced : Balanced '\x7b' '\x7d' c₁)
    (balanced' : Balanced '\x7b' '\x7d' c₂)
    (reached : p.length ∈ modelPlaces (p ++ (c₁ ++ '\x7d' :: q))) :
    (read (p ++ (c₁ ++ '\x7d' :: q))).result.toOption.map Definition.withoutModel =
      (read (p ++ (c₂ ++ '\x7d' :: q))).result.toOption.map Definition.withoutModel := by
  obtain ⟨body, known, opens⟩ := List.mem_flatMap.1 reached
  rw [Option.mem_toList, shaderBody?] at known
  split at known
  · next name rest found =>
    obtain ⟨block, cut, rfl⟩ := Option.map_eq_some_iff.1 known
    have cut := ok_of_toOption cut
    -- Where the model stands in the text, and that its block is closed inside that of the shader.
    obtain ⟨lead, -, leads⟩ := leads_shader found
    obtain ⟨lead', none, text, start, -⟩ := block_place cut
    obtain ⟨before, inside, chars, place⟩ := mem_modelOpenings opens
    have all := block_balanced cut
    rw [chars] at all text
    have split : p ++ (c₁ ++ '\x7d' :: q) =
        (lead ++ (lead' ++ '\x7b' :: (before ++ ['\x7b']))) ++
          (inside ++ '\x7d' :: block.after.val.chars) := by
      refine leads.chars.trans ?_
      rw [text]
      simp
    obtain ⟨rfl, closes⟩ := List.append_inj split (by
      rw [place, start, leads.start]
      simp [Span.whole]
      omega)
    obtain ⟨later, rfl, rfl⟩ := all.closed (by decide) balanced closes.symm
    have replaced : Balanced '\x7b' '\x7d' (before ++ '\x7b' :: (c₂ ++ '\x7d' :: later)) := by
      have swapped := @Balanced.replace _ _ (before ++ ['\x7b']) c₁ c₂ ('\x7d' :: later)
        (by simpa using all) balanced balanced'
      simpa using swapped
    -- The other text has the same shader, with the other inside in its block.
    obtain ⟨rest', found', left⟩ := @findShader_append (.whole _) (.whole _) _
      (lead' ++ '\x7b' :: (before ++ ['\x7b'])) _
      (c₂ ++ '\x7d' :: (later ++ '\x7d' :: block.after.val.chars)) _ _ rfl rfl found
      (by rw [text]; simp)
    obtain ⟨block', cut', chars', -⟩ :=
      @block_ok rest' block.after.val.chars lead' _ none replaced (by rw [left]; simp)
    rw [read_told found cut, read_told found' cut',
      told_isolated chars chars' balanced balanced' rfl (place ▸ opens)]
  · cases known

end Grammar

open Grammar

/-- **The model of a shader stands by itself.** Where the keyword loop comes to a shading model
whose opening brace is the last character of `p`, the inside of its block can be put in place of
any other whose braces are closed: both texts are read or both are refused, and name, queue,
properties and passes are the same. So a malformed model loses the model and nothing else. -/
theorem Definition.parse_isolated {p q c₁ c₂ : String}
    (balanced : Balanced '\x7b' '\x7d' c₁.toList) (balanced' : Balanced '\x7b' '\x7d' c₂.toList)
    (reached : p.length ∈ modelPlaces (p ++ c₁ ++ "\x7d" ++ q).toList) :
    (Definition.parse (p ++ c₁ ++ "\x7d" ++ q)).toOption.map Definition.withoutModel =
      (Definition.parse (p ++ c₂ ++ "\x7d" ++ q)).toOption.map Definition.withoutModel := by
  have chars (c : String) :
      (p ++ c ++ "\x7d" ++ q).toList = p.toList ++ (c.toList ++ '\x7d' :: q.toList) := by simp
  rw [Definition.parse, Definition.parse, chars, chars]
  refine read_isolated balanced balanced' ?_
  rwa [← chars, String.length_toList]

/-- A text up to the inside of its shading model. -/
def inkHead : String := "Shader \"Ink\" \x7b RenderQueue \"Deferred\" ShadingModel \x7b"

/-- The inside of the model. -/
def inkModel : String := " shadingmodel = 7; BRDF = Ink(input); BRDF \x7b return 1; \x7d "

/-- The text behind the model. -/
def inkTail : String :=
  " Pass \x7b HLSLPROGRAM\n#pragma vertex V\n#pragma fragment P\nENDHLSL \x7d \x7d"

/-- What the whole text declares. -/
def ink : Definition :=
  ⟨"Ink", .deferred, [], [⟨"Pass0", .deferred, "V", "P", ""⟩],
    some ⟨7, "Ink(input)", " return 1; "⟩⟩

/-- With a model that cannot be read in its place the rest of the shader is the same. -/
theorem ink_isolated :
    (Definition.parse (inkHead ++ inkModel ++ "\x7d" ++ inkTail)).toOption = some ink ∧
    (Definition.parse (inkHead ++ "\x7b\x7d" ++ "\x7d" ++ inkTail)).toOption.map
      Definition.withoutModel = some ink.withoutModel := by
  have runs : Balanced '\x7b' '\x7d' inkModel.toList ∧
      Balanced '\x7b' '\x7d' "\x7b\x7d".toList ∧
      inkHead.length ∈ modelPlaces (inkHead ++ inkModel ++ "\x7d" ++ inkTail).toList ∧
      (Definition.parse (inkHead ++ inkModel ++ "\x7d" ++ inkTail)).toOption = some ink := by
    decide +kernel
  obtain ⟨balanced, balanced', reached, parsed⟩ := runs
  have same := Definition.parse_isolated balanced balanced' reached
  rw [parsed] at same
  exact ⟨parsed, same.symm⟩

end SurfaceShading
