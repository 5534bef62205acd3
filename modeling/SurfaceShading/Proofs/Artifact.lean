/-
  The files of generated sources. An escaped text is read back byte by byte (`unescape_escape`),
  and holds no slash, so a path is known by its directories and its last component. The last
  component joins three texts by underscores, which are legal in each of them; and the steps of
  a shader's name do not say how many slashes were between them. So two passes share a file
  exactly if directories and joined texts are the same (`sourceName_eq_iff`).

  Passes of one shader never share a file, and neither do those of two shaders whose names are
  written without superfluous slashes, if the names of the passes hold no underscore. Beyond
  that shaders of different names do (`artifacts_shared`).
-/
import SurfaceShading.Proofs.Number.Digits
import SurfaceShading.Proofs.Outcome
import SurfaceShading.Proofs.Path
import SurfaceShading.Proofs.Text.Cuts
import SurfaceShading.Proofs.Text.Offsets
import SurfaceShading.Shader.Grammar.Reader
import SurfaceShading.Shader.Object

namespace SurfaceShading

namespace Artifact

/-! ## Escaped texts -/

/-- The value of a hexadecimal digit in upper case. -/
def hexValue (c : Char) : Nat := if c.isDigit then c.toNat - 48 else c.toNat - 55

/-- The bytes that an escaped text stands for. -/
def unescape : List Char → List UInt8
  | '%' :: a :: b :: rest => UInt8.ofNat (16 * hexValue a + hexValue b) :: unescape rest
  | c :: rest => UInt8.ofNat c.toNat :: unescape rest
  | [] => []

/-- The escaped form of characters. -/
def escaped (cs : List Char) : List Char := (Text.utf8 (String.ofList cs)).flatMap escapeByte

theorem toList_escape (s : String) : (escape s).toList = escaped s.toList := by
  rw [escape, escaped, String.toList_ofList, String.ofList_toList]

theorem escaped_append (cs ds : List Char) : escaped (cs ++ ds) = escaped cs ++ escaped ds := by
  rw [escaped, escaped, escaped, Text.utf8_ofList, Text.utf8_ofList, Text.utf8_ofList,
    List.flatMap_append, List.flatMap_append]

theorem hexValue_hexDigit : ∀ n < 16, hexValue (hexDigit n) = n := by decide

theorem hexDigit_ne_slash : ∀ n < 16, hexDigit n ≠ '/' := by decide

theorem toNat_ofNat_byte (b : UInt8) : (Char.ofNat b.toNat).toNat = b.toNat := by
  have byte : b.toNat < 256 := b.toNat_lt_size
  have valid : b.toNat.isValidChar := .inl (by omega)
  rw [Char.ofNat, dif_pos valid]
  rfl

theorem ofNat_byte_ne {b : UInt8} {c : Char} (plain : isPlain b = true)
    (code : isPlain (UInt8.ofNat c.toNat) = false) : Char.ofNat b.toNat ≠ c := by
  intro same
  have is : UInt8.ofNat c.toNat = b := by rw [← same, toNat_ofNat_byte, UInt8.ofNat_toNat]
  rw [is, plain] at code
  cases code

theorem unescape_escapeByte (b : UInt8) (rest : List Char) :
    unescape (escapeByte b ++ rest) = b :: unescape rest := by
  have byte : b.toNat < 256 := b.toNat_lt_size
  unfold escapeByte
  split
  · next plain =>
    rw [List.singleton_append, unescape, toNat_ofNat_byte, UInt8.ofNat_toNat]
    rintro _ _ _ percent
    exact absurd percent (ofNat_byte_ne plain (by decide))
  · have value : 16 * (b.toNat / 16) + b.toNat % 16 = b.toNat := by omega
    rw [List.cons_append, List.cons_append, List.cons_append, List.nil_append, unescape,
      hexValue_hexDigit _ (by omega), hexValue_hexDigit _ (by omega), value, UInt8.ofNat_toNat]

/-- An escaped text is read back. -/
theorem unescape_escaped (cs : List Char) : unescape (escaped cs) = Text.utf8 (String.ofList cs) := by
  have bytes (l : List UInt8) : unescape (l.flatMap escapeByte) = l := by
    induction l with
    | nil => rfl
    | cons b l ih => rw [List.flatMap_cons, unescape_escapeByte, ih]
  exact bytes _

theorem escaped_inj {cs ds : List Char} : escaped cs = escaped ds ↔ cs = ds := by
  refine ⟨fun same => ?_, congrArg escaped⟩
  have bytes := congrArg unescape same
  rw [unescape_escaped, unescape_escaped, Text.utf8, Text.utf8, Array.toList_inj] at bytes
  exact String.ofList_injective (String.toByteArray_inj.1 (ByteArray.ext bytes))

theorem escaped_nil : escaped [] = [] := rfl

theorem escaped_ne_nil {cs : List Char} (nonempty : cs ≠ []) : escaped cs ≠ [] :=
  fun empty => nonempty (escaped_inj.1 (empty.trans escaped_nil.symm))

/-- No escaped text has a slash in it. -/
theorem slash_not_mem_escaped (cs : List Char) : '/' ∉ escaped cs := by
  intro mem
  obtain ⟨b, -, mem⟩ := List.mem_flatMap.1 mem
  have byte : b.toNat < 256 := b.toNat_lt_size
  unfold escapeByte at mem
  split at mem
  · next plain => exact ofNat_byte_ne plain (by decide) (List.mem_singleton.1 mem).symm
  · rcases List.mem_cons.1 mem with same | mem
    · cases same
    · rcases List.mem_cons.1 mem with same | mem
      · exact hexDigit_ne_slash _ (by omega) same.symm
      · exact hexDigit_ne_slash _ (by omega) (List.mem_singleton.1 mem).symm

/-- A character that is written as it is. -/
theorem escaped_singleton {c : Char} (ascii : c.toNat < 128)
    (plain : isPlain (UInt8.ofNat c.toNat) = true) : escaped [c] = [c] := by
  have code : c.val.toNat ≤ 127 := Nat.le_of_lt_succ ascii
  have plain : isPlain (UInt8.ofNat c.val.toNat) = true := plain
  have byte : (UInt8.ofNat c.val.toNat).toNat = c.toNat :=
    UInt8.toNat_ofNat_of_lt' (Nat.lt_of_le_of_lt code (by decide))
  rw [escaped, Text.utf8_ofList, List.flatMap_singleton, String.utf8EncodeChar, if_pos code,
    List.flatMap_singleton, escapeByte, if_pos plain, byte, Char.ofNat_toNat]

/-- Digits stand for themselves. -/
theorem escaped_digits {cs : List Char} (digits : ∀ c ∈ cs, c.isDigit = true) :
    escaped cs = cs := by
  induction cs with
  | nil => rfl
  | cons c cs ih =>
    obtain ⟨first, rest⟩ := List.forall_mem_cons.1 digits
    have range := Char.isDigit_iff_toNat.1 first
    have lower : 48 ≤ c.toNat := range.1
    have upper : c.toNat ≤ 57 := range.2
    have byte : (UInt8.ofNat c.toNat).toNat = c.toNat :=
      UInt8.toNat_ofNat_of_lt' (Nat.lt_of_le_of_lt upper (by decide))
    have plain : isPlain (UInt8.ofNat c.toNat) = true := by
      simp [isPlain, UInt8.le_iff_toNat_le, byte, lower, upper]
    rw [← List.singleton_append, escaped_append, escaped_singleton (by omega) plain, ih rest]

/-! ## Components -/

/-- The steps of the name of a shader. -/
def steps (shader : String) : List (List Char) :=
  (Text.splitAtChar '/' shader.toList).filter (! ·.isEmpty)

/-- The steps that become directories. -/
def directories (shader : String) : List (List Char) := (steps shader).dropLast

/-- The last step of the name of a shader, the index and the name of a pass, joined by
underscores. -/
def joined (shader : String) (index : Nat) (pass : String) : List Char :=
  (steps shader).getLastD [] ++ '_' :: Nat.toDigits 10 index ++ '_' :: pass.toList

theorem step_of_mem_steps {shader : String} {step : List Char} (mem : step ∈ steps shader) :
    step ≠ [] ∧ '/' ∉ step := by
  obtain ⟨piece, nonempty⟩ := List.mem_filter.1 mem
  exact ⟨by simpa using nonempty, Text.not_mem_of_mem_splitAtChar piece⟩

/-- What stands behind steps with slashes between them stands behind the last of them. -/
theorem intercalate_concat (l : List (List Char)) (last tail : List Char) :
    ['/'].intercalate (l ++ [last]) ++ tail = ['/'].intercalate (l ++ [last ++ tail]) := by
  induction l with
  | nil => simp
  | cons first l ih =>
    cases l with
    | nil => simp
    | cons second l =>
      rw [List.cons_append, List.cons_append, List.intercalate_cons_cons, List.append_assoc,
        ← List.cons_append, ih, List.cons_append, List.cons_append, List.cons_append,
        List.intercalate_cons_cons]

theorem toList_stem (shader : String) :
    (stem shader).toList = ['/'].intercalate ((steps shader).map escaped) := by
  rw [stem, String.toList_intercalate, List.map_map]
  refine congrArg _ (List.map_congr_left fun piece _ => ?_)
  rw [Function.comp_apply, toList_escape, String.toList_ofList]

theorem escaped_joined (shader : String) (index : Nat) (pass : String) :
    escaped (joined shader index pass) =
      escaped ((steps shader).getLastD []) ++ '_' :: Nat.toDigits 10 index ++
        '_' :: (escape pass).toList := by
  have underscore (cs : List Char) : escaped ('_' :: cs) = '_' :: escaped cs := by
    rw [← List.singleton_append, escaped_append, escaped_singleton (by decide) (by decide),
      List.singleton_append]
  rw [joined, escaped_append, escaped_append, underscore, underscore,
    escaped_digits fun _ => isDigit_of_mem_toDigits, toList_escape]

/-- The components of the path of a source file. -/
def components (shader : String) (index : Nat) (pass : String) : List (List Char) :=
  (directories shader).map escaped ++ [escaped (joined shader index pass) ++ ".hlsl".toList]

/-- What stands behind the stem of a shader stands behind its last step. -/
theorem toList_stem_append (shader : String) (index : Nat) (pass : String) (tail : List Char) :
    (stem shader).toList ++ ('_' :: Nat.toDigits 10 index ++ '_' :: (escape pass).toList ++ tail) =
      ['/'].intercalate
        ((directories shader).map escaped ++ [escaped (joined shader index pass) ++ tail]) := by
  rw [toList_stem, escaped_joined, directories]
  cases is : (steps shader).getLast? with
  | none =>
    rw [List.getLast?_eq_none_iff.1 is, List.getLastD_nil, escaped_nil]
    simp
  | some last =>
    obtain ⟨init, split⟩ := List.getLast?_eq_some_iff.1 is
    rw [split, List.map_append, List.map_singleton, intercalate_concat, List.dropLast_concat,
      List.getLastD_concat]
    simp only [List.append_assoc]

theorem toList_sourceName (shader : String) (index : Nat) (pass : String) :
    (sourceName shader index pass).toList =
      ['/'].intercalate (components shader index pass) := by
  have written : (sourceName shader index pass).toList = (stem shader).toList ++
      ('_' :: Nat.toDigits 10 index ++ '_' :: (escape pass).toList ++ ".hlsl".toList) := by
    unfold sourceName
    simp [toString]
  rw [written, toList_stem_append, components]

theorem step_of_mem_components {shader pass : String} {index : Nat} :
    ∀ step ∈ components shader index pass, step ≠ [] ∧ '/' ∉ step := by
  intro step mem
  rcases List.mem_append.1 mem with mem | mem
  · obtain ⟨raw, listed, rfl⟩ := List.mem_map.1 mem
    have nonempty := (step_of_mem_steps (List.mem_of_mem_dropLast listed)).1
    exact ⟨escaped_ne_nil nonempty, slash_not_mem_escaped raw⟩
  · rw [List.mem_singleton.1 mem]
    refine ⟨List.append_ne_nil_of_right_ne_nil _ (by decide), fun mem => ?_⟩
    rcases List.mem_append.1 mem with mem | mem
    · exact slash_not_mem_escaped _ mem
    · revert mem
      decide

/-- Two source files are one exactly if their directories and the joined texts are. -/
theorem sourceName_eq_iff {s t : String} {i j : Nat} {p q : String} :
    sourceName s i p = sourceName t j q ↔
      directories s = directories t ∧ joined s i p = joined t j q := by
  rw [← String.toList_inj, toList_sourceName, toList_sourceName]
  constructor
  · intro same
    have lists := Path.intercalate_inj step_of_mem_components step_of_mem_components same
    rw [components, components, List.append_singleton_inj, List.append_left_inj] at lists
    exact ⟨List.map_injective_iff.2 (fun _ _ => escaped_inj.1) lists.1, escaped_inj.1 lists.2⟩
  · rintro ⟨above, last⟩
    rw [components, components, above, last]

/-! ## Joined texts -/

/-- What stands around the first of some character. -/
theorem append_cons_inj {sep : Char} {a b c d : List Char} (noneA : sep ∉ a) (noneC : sep ∉ c)
    (same : a ++ sep :: b = c ++ sep :: d) : a = c ∧ b = d := by
  have first : a = c := by
    rw [← Text.takeWhile_ne_append noneA b, same, Text.takeWhile_ne_append noneC d]
  subst first
  exact ⟨rfl, (List.cons.inj (List.append_cancel_left same)).2⟩

/-- What stands around the last of some character. -/
theorem append_cons_inj' {sep : Char} {a b c d : List Char} (noneB : sep ∉ b) (noneD : sep ∉ d)
    (same : a ++ sep :: b = c ++ sep :: d) : a = c ∧ b = d := by
  have reversed := congrArg List.reverse same
  simp only [List.reverse_append, List.reverse_cons, List.append_assoc, List.singleton_append]
    at reversed
  obtain ⟨after, before⟩ := append_cons_inj (mt List.mem_reverse.1 noneB)
    (mt List.mem_reverse.1 noneD) reversed
  exact ⟨List.reverse_injective before, List.reverse_injective after⟩

theorem underscore_not_mem_toDigits (n : Nat) : '_' ∉ Nat.toDigits 10 n :=
  fun mem => nomatch isDigit_of_mem_toDigits mem

theorem toDigits_inj {m n : Nat} (same : Nat.toDigits 10 m = Nat.toDigits 10 n) : m = n := by
  rw [← natOfDigits_toDigits m, same, natOfDigits_toDigits]

/-- Within one shader the joined text tells index and name of a pass. -/
theorem joined_inj {s p q : String} {i j : Nat} (same : joined s i p = joined s j q) :
    i = j ∧ p = q := by
  rw [joined, joined, List.append_assoc, List.append_assoc] at same
  have rest := (List.cons.inj (List.append_cancel_left same)).2
  obtain ⟨index, pass⟩ := append_cons_inj (underscore_not_mem_toDigits i)
    (underscore_not_mem_toDigits j) rest
  exact ⟨toDigits_inj index, String.toList_inj.1 pass⟩

/-- Where the names of passes hold no underscore, the joined text also tells the last step. -/
theorem joined_inj_of_plain {s t p q : String} {i j : Nat} (noneP : '_' ∉ p.toList)
    (noneQ : '_' ∉ q.toList) (same : joined s i p = joined t j q) :
    (steps s).getLastD [] = (steps t).getLastD [] ∧ i = j ∧ p = q := by
  obtain ⟨front, pass⟩ := append_cons_inj' noneP noneQ same
  obtain ⟨last, index⟩ := append_cons_inj' (underscore_not_mem_toDigits i)
    (underscore_not_mem_toDigits j) front
  exact ⟨last, toDigits_inj index, String.toList_inj.1 pass⟩

/-! ## Tidy names -/

/-- No slash of a name is superfluous: none is first or last or stands behind another. -/
def Tidy (shader : String) : Prop := ∀ piece ∈ Text.splitAtChar '/' shader.toList, piece ≠ []

instance (shader : String) : Decidable (Tidy shader) :=
  inferInstanceAs (Decidable (∀ piece ∈ Text.splitAtChar '/' shader.toList, piece ≠ []))

theorem steps_of_tidy {shader : String} (tidy : Tidy shader) :
    steps shader = Text.splitAtChar '/' shader.toList :=
  List.filter_eq_self.2 fun piece mem => by simpa using tidy piece mem

/-- A tidy name is known by its directories and its last step. -/
theorem Tidy.eq {s t : String} (tidy : Tidy s) (tidy' : Tidy t)
    (above : directories s = directories t)
    (last : (steps s).getLastD [] = (steps t).getLastD []) : s = t := by
  have rebuilt {name : String} (tidy : Tidy name) :
      directories name ++ [(steps name).getLastD []] = Text.splitAtChar '/' name.toList := by
    have split := steps_of_tidy tidy
    have nonempty : steps name ≠ [] := split ▸ Text.splitAtChar_ne_nil '/' name.toList
    rw [← split, directories, List.getLastD_eq_getLast?, List.getLast?_eq_some_getLast nonempty,
      Option.getD_some, List.dropLast_append_getLast nonempty]
  have pieces : Text.splitAtChar '/' s.toList = Text.splitAtChar '/' t.toList := by
    rw [← rebuilt tidy, ← rebuilt tidy', above, last]
  rw [← String.toList_inj, ← Text.joinWith_splitAtChar '/' s.toList, pieces,
    Text.joinWith_splitAtChar]

end Artifact

open Artifact

/-- **Which passes share a file.** Two passes have one artifact exactly if the directories of
their shaders and the texts that join last step, index and pass are the same. Two passes of one
shader never do; nor do passes of two shaders with tidy names of which no pass has an underscore
in its name. -/
theorem Shader.artifactName_eq_iff (s t : Shader) :
    (∀ i j, s.artifactName i = t.artifactName j ↔
      directories s.name = directories t.name ∧
        joined s.name i (s.passName i) = joined t.name j (t.passName j)) ∧
    (∀ i j, s.artifactName i = s.artifactName j → i = j) ∧
    (Tidy s.name → Tidy t.name → s.name ≠ t.name → ∀ i j,
      '_' ∉ (s.passName i).toList → '_' ∉ (t.passName j).toList →
        s.artifactName i ≠ t.artifactName j) := by
  refine ⟨fun _ _ => sourceName_eq_iff, fun i j same => ?_, ?_⟩
  · exact (joined_inj (sourceName_eq_iff.1 same).2).1
  · intro tidy tidy' ne i j none none' same
    obtain ⟨above, joined⟩ := sourceName_eq_iff.1 same
    exact ne (tidy.eq tidy' above (joined_inj_of_plain none none' joined).1)

/-! ## Shaders of one pass or two -/

/-- The text of a shader of some name whose passes have the given names. -/
def namedText (name : String) (passes : List String) : String :=
  "Shader \"" ++ name ++ "\" \x7b" ++ String.join (passes.map fun pass =>
    " Pass \x7b Name \"" ++ pass ++
      "\" HLSLPROGRAM\n#pragma vertex V\n#pragma fragment P\nENDHLSL \x7d") ++ " \x7d"

/-- The shader of that text. -/
def named (name : String) (passes : List String) : Shader :=
  ⟨⟨name, .forward, [], passes.map fun pass => ⟨pass, .forward, "V", "P", ""⟩, none⟩,
    .ofProperties [], false⟩

/-- That a text reads as the shader that is named so. -/
def ReadsAsNamed (name : String) (passes : List String) : Prop :=
  Definition.parse (namedText name passes) = .ok (named name passes).definition ∧
    Shader.ofDefinition (named name passes).definition false 65536 = .ok (named name passes)

theorem readsAsNamed_of_parsed {name : String} {passes : List String}
    (parsed : (Definition.parse (namedText name passes)).toOption =
      some (named name passes).definition) : ReadsAsNamed name passes :=
  ⟨ok_of_toOption parsed, rfl⟩

/-- A step and an underscore do not make one file, nor do two passes. -/
theorem Shader.artifacts_apart :
    (Tidy "Custom/Unlit" ∧ Tidy "Custom_Unlit") ∧
    (named "Custom/Unlit" ["Main", "Shadow"]).artifactName 0 ≠
      (named "Custom/Unlit" ["Main", "Shadow"]).artifactName 1 ∧
    ∀ i < 2, (named "Custom/Unlit" ["Main", "Shadow"]).artifactName i ≠
      (named "Custom_Unlit" ["Main"]).artifactName 0 := by
  have parts := Shader.artifactName_eq_iff (named "Custom/Unlit" ["Main", "Shadow"])
    (named "Custom_Unlit" ["Main"])
  have tidy : Tidy "Custom/Unlit" ∧ Tidy "Custom_Unlit" := by decide +kernel
  refine ⟨tidy, fun same => absurd (parts.2.1 0 1 same) (by decide), fun i below => ?_⟩
  refine parts.2.2 tidy.1 tidy.2 (by decide +kernel) i 0 ?_
    (by decide +kernel)
  revert i
  decide +kernel

/-- A slash too many makes no other file, and an underscore may belong to a pass or to a
shader. -/
theorem Shader.artifacts_shared :
    (ReadsAsNamed "Custom//Unlit" ["Main"] ∧ ReadsAsNamed "Custom/Unlit" ["Main"] ∧
      (named "Custom//Unlit" ["Main"]).artifactName 0 = "Custom/Unlit_0_Main.hlsl" ∧
      (named "Custom/Unlit" ["Main"]).artifactName 0 = "Custom/Unlit_0_Main.hlsl") ∧
    (ReadsAsNamed "Unlit" ["1_Main"] ∧ ReadsAsNamed "Unlit_0" ["Depth", "Main"] ∧
      (named "Unlit" ["1_Main"]).artifactName 0 = "Unlit_0_1_Main.hlsl" ∧
      (named "Unlit_0" ["Depth", "Main"]).artifactName 1 = "Unlit_0_1_Main.hlsl") ∧
    ¬ ∀ s t : Shader, s.name ≠ t.name → ∀ i j, s.artifactName i ≠ t.artifactName j := by
  have slash : (named "Custom//Unlit" ["Main"]).artifactName 0 = "Custom/Unlit_0_Main.hlsl" ∧
      (named "Custom/Unlit" ["Main"]).artifactName 0 = "Custom/Unlit_0_Main.hlsl" := by
    decide +kernel
  refine ⟨⟨readsAsNamed_of_parsed (by decide +kernel), readsAsNamed_of_parsed (by decide +kernel),
      slash⟩,
    ⟨readsAsNamed_of_parsed (by decide +kernel), readsAsNamed_of_parsed (by decide +kernel),
      by decide +kernel⟩, fun apart => ?_⟩
  exact apart (named "Custom//Unlit" ["Main"]) (named "Custom/Unlit" ["Main"]) (by decide) 0 0
    (slash.1.trans slash.2.symm)

end SurfaceShading
