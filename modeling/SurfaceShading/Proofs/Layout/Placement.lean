/-
  Where a layout places the properties of a shader. `Layout.Fits` says that the size of the
  layout, in exact arithmetic, is a word; `Layout.Regular` is the rule of the layout. Each
  parameter is placed behind those before it (`Layout.Placed`), so what is said of a list of
  parameters follows from what is said of one (`AllPlaced.append`, `AllPlaced.placed`). The
  layout of every list of properties that fits is regular (`Layout.regular_of_fits`).
-/
import SurfaceShading.Proofs.Layout.Rounding
import SurfaceShading.Proofs.Value
import Mathlib.Data.List.Forall2

namespace SurfaceShading

theorem exists_right_of_forall₂ {α β : Type} {R : α → β → Prop} {xs : List α} {ys : List β}
    (related : List.Forall₂ R xs ys) {x : α} (mem : x ∈ xs) : ∃ y ∈ ys, R x y := by
  induction related with
  | nil => cases mem
  | cons first _ ih =>
    rcases List.mem_cons.1 mem with rfl | mem
    · exact ⟨_, List.mem_cons_self, first⟩
    · obtain ⟨y, mem', is⟩ := ih mem
      exact ⟨y, List.mem_cons_of_mem _ mem', is⟩

namespace PropertyType

theorem toNat_size_mem (t : PropertyType) : t.size.toNat ∈ [4, 8, 12, 16] := by
  cases t with
  | value t => cases t <;> decide
  | texture d => cases d <;> decide

theorem four_dvd_size (t : PropertyType) : 4 ∣ t.size.toNat := by
  have mem := t.toNat_size_mem
  simp only [List.mem_cons, List.not_mem_nil, or_false] at mem
  omega

theorem size_pos (t : PropertyType) : 0 < t.size.toNat := by
  have mem := t.toNat_size_mem
  simp only [List.mem_cons, List.not_mem_nil, or_false] at mem
  omega

theorem size_le (t : PropertyType) : t.size.toNat ≤ 16 := by
  have mem := t.toNat_size_mem
  simp only [List.mem_cons, List.not_mem_nil, or_false] at mem
  omega

end PropertyType

namespace Property

def isTexture (p : Property) : Bool := p.type.isTexture

/-- What the place of the property holds. -/
def content (p : Property) : ParameterContent :=
  match p.type with
  | .value t => .value (p.defaultValue t)
  | .texture d => .texture d p.default

end Property

namespace Parameter

/-- The first byte after the parameter, in exact arithmetic. -/
def last (q : Parameter) : Nat := q.offset.toNat + q.size.toNat

/-- The parameter is the place of a property. -/
structure Holds (q : Parameter) (p : Property) : Prop where
  name : q.name = p.name
  type : q.type = p.type
  content : q.content = p.content

theorem size_of_isTexture {q : Parameter} (texture : q.isTexture = true) : q.size = 4 := by
  unfold isTexture at texture
  unfold size
  cases is : q.type with
  | value t => rw [is] at texture; cases texture
  | texture d => rfl

theorem Holds.size {q : Parameter} {p : Property} (holds : q.Holds p) : q.size = p.type.size :=
  congrArg PropertyType.size holds.type

theorem Holds.isTexture {q : Parameter} {p : Property} (holds : q.Holds p) :
    q.isTexture = p.isTexture := congrArg PropertyType.isTexture holds.type

end Parameter

namespace Property

variable {p : Property}

theorem isTexture_of_value {t : ValueType} (is : p.type = .value t) : p.isTexture = false :=
  congrArg PropertyType.isTexture is

theorem isTexture_of_texture {d : TextureDimension} (is : p.type = .texture d) :
    p.isTexture = true := congrArg PropertyType.isTexture is

/-- The parameter of a value that starts at an offset. -/
def valueAt (p : Property) (t : ValueType) (start : UInt32) : Parameter :=
  ⟨p.name, start / registerSize, start, .value (p.defaultValue t)⟩

/-- The parameter of a texture that starts at an offset. -/
def textureAt (p : Property) (d : TextureDimension) (ordinal start : UInt32) : Parameter :=
  ⟨p.name, ordinal, start, .texture d p.default⟩

theorem holds_valueAt (p : Property) {t : ValueType} (is : p.type = .value t) (start : UInt32) :
    (p.valueAt t start).Holds p where
  name := rfl
  type := by rw [is, valueAt, Parameter.type]; exact congrArg _ (p.type_defaultValue t)
  content := by rw [content, is]; rfl

theorem holds_textureAt (p : Property) {d : TextureDimension} (is : p.type = .texture d)
    (ordinal start : UInt32) : (p.textureAt d ordinal start).Holds p where
  name := rfl
  type := is.symm
  content := by rw [content, is]; rfl

end Property

namespace Layout

/-! ## Exact arithmetic -/

/-- Where the values among properties end when they are placed behind a start. -/
def valuesEnd (start : Nat) : List Property → Nat
  | [] => start
  | p :: rest =>
    if p.isTexture then valuesEnd start rest
    else valuesEnd (exactFit start p.type.size.toNat + p.type.size.toNat) rest

/-- The number of textures among properties. -/
def textureCount (properties : List Property) : Nat := (properties.filter Property.isTexture).length

/-- The end of the last parameter. -/
def exactEnd (properties : List Property) : Nat :=
  valuesEnd 0 properties + 4 * textureCount properties

/-- The size of the constant buffer. -/
def exactSize (properties : List Property) : Nat := roundUp (exactEnd properties) 256

/-- The size of the layout is a word. -/
def Fits (properties : List Property) : Prop := exactSize properties < UInt32.size

instance (properties : List Property) : Decidable (Fits properties) :=
  inferInstanceAs (Decidable (_ < _))

theorem textureCount_cons_value {p : Property} (rest : List Property) {t : ValueType}
    (is : p.type = .value t) : textureCount (p :: rest) = textureCount rest := by
  rw [textureCount, List.filter_cons_of_neg (by simp [Property.isTexture_of_value is])]
  rfl

theorem textureCount_cons_texture {p : Property} (rest : List Property) {d : TextureDimension}
    (is : p.type = .texture d) : textureCount (p :: rest) = textureCount rest + 1 := by
  rw [textureCount, List.filter_cons_of_pos (Property.isTexture_of_texture is)]
  rfl

theorem le_exactFit (start size : Nat) : start ≤ exactFit start size := by
  unfold exactFit roundUp
  split <;> omega

theorem le_valuesEnd (start : Nat) (properties : List Property) :
    start ≤ valuesEnd start properties := by
  induction properties generalizing start with
  | nil => exact Nat.le_refl start
  | cons p rest ih =>
    rw [valuesEnd]
    split
    · exact ih start
    · exact Nat.le_trans (le_exactFit start _) (Nat.le_trans (Nat.le_add_right _ _) (ih _))

theorem Fits.exactEnd_le {properties : List Property} (fits : Fits properties) :
    exactEnd properties + 256 ≤ UInt32.size := by
  unfold Fits exactSize roundUp at fits
  rw [UInt32.size] at *
  omega

/-! ## Parameters behind parameters -/

/-- The end of the last one of a list of parameters. -/
def endOf (placed : List Parameter) : Nat := (placed.getLast?.map Parameter.last).getD 0

/-- The number of textures among parameters. -/
def ordinalAfter (placed : List Parameter) : Nat := (placed.filter Parameter.isTexture).length

/-- The place of a parameter behind others. A value has the first place in which it stays
within one register, and the row of this register; a texture follows at once, and has the
number of the textures before it. -/
structure Placed (before : List Parameter) (q : Parameter) : Prop where
  value : q.isTexture = false → IsLeast (places (endOf before) q.size.toNat) q.offset.toNat ∧
    q.register.toNat = q.offset.toNat / 16
  texture : q.isTexture = true → q.offset.toNat = endOf before ∧
    q.register.toNat = ordinalAfter before

/-- Each of a list of parameters is placed behind those before it. -/
def AllPlaced (before : List Parameter) : List Parameter → Prop
  | [] => True
  | q :: rest => Placed before q ∧ AllPlaced (before ++ [q]) rest

@[simp] theorem endOf_append_singleton (before : List Parameter) (q : Parameter) :
    endOf (before ++ [q]) = q.last := by simp [endOf]

theorem Placed.le_offset {before : List Parameter} {q : Parameter} (placed : Placed before q) :
    endOf before ≤ q.offset.toNat := by
  cases texture : q.isTexture with
  | false => exact (placed.value texture).1.1.2.1
  | true => exact Nat.le_of_eq (placed.texture texture).1.symm

namespace AllPlaced

variable {before xs ys : List Parameter}

theorem append (first : AllPlaced before xs) (second : AllPlaced (before ++ xs) ys) :
    AllPlaced before (xs ++ ys) := by
  induction xs generalizing before with
  | nil => simpa using second
  | cons q rest ih =>
    refine ⟨first.1, ih first.2 ?_⟩
    rwa [List.append_assoc, List.singleton_append]

/-- Any parameter of the list is placed behind those before it. -/
theorem placed {q : Parameter} (all : AllPlaced before (xs ++ q :: ys)) :
    Placed (before ++ xs) q := by
  induction xs generalizing before with
  | nil => simpa using all.1
  | cons r rest ih =>
    have placed := ih all.2
    rwa [List.append_assoc, List.singleton_append] at placed

/-- All stand behind the start. -/
theorem le_offset (all : AllPlaced before xs) : ∀ q ∈ xs, endOf before ≤ q.offset.toNat := by
  induction xs generalizing before with
  | nil => exact fun _ mem => absurd mem List.not_mem_nil
  | cons r rest ih =>
    have start := all.1.le_offset
    intro q mem
    rcases List.mem_cons.1 mem with rfl | mem
    · exact start
    · have behind := ih all.2 q mem
      rw [endOf_append_singleton, Parameter.last] at behind
      omega

theorem four_dvd_offset (all : AllPlaced before xs) (start : 4 ∣ endOf before) :
    ∀ q ∈ xs, 4 ∣ q.offset.toNat := by
  induction xs generalizing before with
  | nil => exact fun _ mem => absurd mem List.not_mem_nil
  | cons r rest ih =>
    have here : 4 ∣ r.offset.toNat := by
      cases texture : r.isTexture with
      | false => exact (all.1.value texture).1.1.1
      | true => rw [(all.1.texture texture).1]; exact start
    intro q mem
    rcases List.mem_cons.1 mem with rfl | mem
    · exact here
    · refine ih all.2 ?_ q mem
      rw [endOf_append_singleton]
      exact Nat.dvd_add here r.type.four_dvd_size

/-- The ranges of the parameters increase, and no two share a byte. -/
theorem increasing (all : AllPlaced before xs) :
    xs.Pairwise fun q r => q.last ≤ r.offset.toNat := by
  induction xs generalizing before with
  | nil => exact .nil
  | cons q rest ih =>
    refine List.pairwise_cons.2 ⟨fun r mem => ?_, ih all.2⟩
    have behind := all.2.le_offset r mem
    rwa [endOf_append_singleton] at behind

/-- None reaches behind the end of the last one. -/
theorem last_le (all : AllPlaced before xs) : ∀ q ∈ xs, q.last ≤ endOf (before ++ xs) := by
  induction xs generalizing before with
  | nil => exact fun _ mem => absurd mem List.not_mem_nil
  | cons r rest ih =>
    intro q mem
    have behind := ih all.2
    rw [List.append_assoc, List.singleton_append] at behind
    rcases List.mem_cons.1 mem with rfl | mem
    · cases rest with
      | nil => simp
      | cons s rest =>
        have next := all.2.1.le_offset
        have end_ := behind s List.mem_cons_self
        rw [endOf_append_singleton] at next
        rw [Parameter.last] at end_
        omega
    · exact behind q mem

end AllPlaced

/-! ## The values -/

theorem placeValues_cons_value (offset : UInt32) {p : Property} (rest : List Property)
    {t : ValueType} (is : p.type = .value t) :
    placeValues offset (p :: rest) =
      let start := fit offset p.type.size
      let placed := placeValues (start + p.type.size) rest
      (p.valueAt t start :: placed.1, placed.2) := by
  rw [placeValues, is]
  rfl

theorem placeValues_cons_texture (offset : UInt32) {p : Property} (rest : List Property)
    {d : TextureDimension} (is : p.type = .texture d) :
    placeValues offset (p :: rest) = placeValues offset rest := by
  rw [placeValues, is]

theorem placeValues_holds (offset : UInt32) (properties : List Property) :
    List.Forall₂ Parameter.Holds (placeValues offset properties).1
      (properties.filter (! ·.isTexture)) := by
  induction properties generalizing offset with
  | nil => exact .nil
  | cons p rest ih =>
    cases is : p.type with
    | texture d =>
      rw [placeValues_cons_texture offset rest is,
        List.filter_cons_of_neg (by simp [Property.isTexture_of_texture is])]
      exact ih offset
    | value t =>
      rw [placeValues_cons_value offset rest is,
        List.filter_cons_of_pos (by simp [Property.isTexture_of_value is])]
      exact .cons (p.holds_valueAt is _) (ih _)

theorem placeValues_placed (properties : List Property) (offset : UInt32)
    (before : List Parameter) (start : offset.toNat = endOf before) (aligned : 4 ∣ offset.toNat)
    (fits : valuesEnd offset.toNat properties < UInt32.size) :
    let placed := placeValues offset properties
    AllPlaced before placed.1 ∧ placed.2.toNat = valuesEnd offset.toNat properties ∧
      endOf (before ++ placed.1) = valuesEnd offset.toNat properties ∧
      4 ∣ valuesEnd offset.toNat properties := by
  induction properties generalizing offset before with
  | nil => exact ⟨trivial, rfl, by rw [placeValues, List.append_nil]; exact start.symm, aligned⟩
  | cons p rest ih =>
    cases is : p.type with
    | texture d =>
      rw [valuesEnd, if_pos (Property.isTexture_of_texture is)] at fits ⊢
      rw [placeValues_cons_texture offset rest is]
      exact ih offset before start aligned fits
    | value t =>
      rw [valuesEnd, if_neg (by simp [Property.isTexture_of_value is])] at fits ⊢
      rw [placeValues_cons_value offset rest is]
      have room := le_valuesEnd (exactFit offset.toNat p.type.size.toNat + p.type.size.toNat) rest
      have least := exactFit_isLeast aligned p.type.size_pos p.type.size_le
      have here : (fit offset p.type.size).toNat = exactFit offset.toNat p.type.size.toNat :=
        toNat_fit p.type.size_le (by omega)
      have next : (fit offset p.type.size + p.type.size).toNat =
          exactFit offset.toNat p.type.size.toNat + p.type.size.toNat := by
        rw [UInt32.toNat_add, here]
        exact Nat.mod_eq_of_lt (Nat.lt_of_le_of_lt room fits)
      have holds := p.holds_valueAt is (fit offset p.type.size)
      rw [← next] at fits ⊢
      obtain ⟨all, last, final, multiple⟩ := ih (fit offset p.type.size + p.type.size)
        (before ++ [p.valueAt t (fit offset p.type.size)])
        (by rw [endOf_append_singleton, Parameter.last, holds.size, next, ← here]; rfl)
        (by rw [next]; exact Nat.dvd_add least.1.1 p.type.four_dvd_size) fits
      rw [List.append_assoc, List.singleton_append] at final
      refine ⟨⟨⟨fun _ => ⟨?_, UInt32.toNat_div _ _⟩, nofun⟩, all⟩, last, final, multiple⟩
      rw [holds.size, ← start, Property.valueAt, here]
      exact least

/-! ## The textures -/

theorem placeTextures_cons_value (offset ordinal : UInt32) {p : Property} (rest : List Property)
    {t : ValueType} (is : p.type = .value t) :
    placeTextures offset ordinal (p :: rest) = placeTextures offset ordinal rest := by
  rw [placeTextures, is]

theorem placeTextures_cons_texture (offset ordinal : UInt32) {p : Property}
    (rest : List Property) {d : TextureDimension} (is : p.type = .texture d) :
    placeTextures offset ordinal (p :: rest) =
      let placed := placeTextures (offset + p.type.size) (ordinal + 1) rest
      (p.textureAt d ordinal offset :: placed.1, placed.2) := by
  rw [placeTextures, is]
  rfl

theorem placeTextures_holds (offset ordinal : UInt32) (properties : List Property) :
    List.Forall₂ Parameter.Holds (placeTextures offset ordinal properties).1
      (properties.filter (·.isTexture)) := by
  induction properties generalizing offset ordinal with
  | nil => exact .nil
  | cons p rest ih =>
    cases is : p.type with
    | value t =>
      rw [placeTextures_cons_value offset ordinal rest is,
        List.filter_cons_of_neg (by simp [Property.isTexture_of_value is])]
      exact ih offset ordinal
    | texture d =>
      rw [placeTextures_cons_texture offset ordinal rest is,
        List.filter_cons_of_pos (Property.isTexture_of_texture is)]
      exact .cons (p.holds_textureAt is _ _) (ih _ _)

theorem placeTextures_placed (properties : List Property) (offset ordinal : UInt32)
    (before : List Parameter) (start : offset.toNat = endOf before)
    (number : ordinal.toNat = ordinalAfter before)
    (fits : offset.toNat + 4 * textureCount properties < UInt32.size)
    (room : ordinal.toNat + textureCount properties < UInt32.size) :
    let placed := placeTextures offset ordinal properties
    AllPlaced before placed.1 ∧ placed.2.toNat = offset.toNat + 4 * textureCount properties ∧
      endOf (before ++ placed.1) = offset.toNat + 4 * textureCount properties := by
  induction properties generalizing offset ordinal before with
  | nil => exact ⟨trivial, rfl, by rw [placeTextures, List.append_nil]; exact start.symm⟩
  | cons p rest ih =>
    cases is : p.type with
    | value t =>
      rw [textureCount_cons_value rest is] at fits room ⊢
      rw [placeTextures_cons_value offset ordinal rest is]
      exact ih offset ordinal before start number fits room
    | texture d =>
      rw [placeTextures_cons_texture offset ordinal rest is, textureCount_cons_texture rest is]
      rw [textureCount_cons_texture rest is] at fits room
      rw [UInt32.size] at *
      have four : p.type.size = 4 := by rw [is]; rfl
      have next : (offset + p.type.size).toNat = offset.toNat + 4 := by
        rw [four, UInt32.toNat_add]
        exact Nat.mod_eq_of_lt (by simp only [UInt32.reduceToNat]; omega)
      have following : (ordinal + 1).toNat = ordinal.toNat + 1 := by
        rw [UInt32.toNat_add, UInt32.toNat_one]
        omega
      have holds := p.holds_textureAt is ordinal offset
      obtain ⟨all, last, final⟩ := ih (offset + p.type.size) (ordinal + 1)
        (before ++ [p.textureAt d ordinal offset])
        (by rw [endOf_append_singleton, Parameter.last, holds.size, next, four]; rfl)
        (by rw [ordinalAfter, List.filter_append, List.length_append, following, number]; rfl)
        (by omega) (by omega)
      rw [List.append_assoc, List.singleton_append] at final
      refine ⟨⟨⟨fun is => (by cases is), fun _ => ⟨start, number⟩⟩, all⟩, ?_, ?_⟩
      · dsimp only
        omega
      · dsimp only
        omega

/-! ## The whole layout -/

/-- The rule of the layout. -/
structure Regular (properties : List Property) (layout : Layout) : Prop where
  /-- Every property has one parameter. The values come first, then the textures, each in the
  order of their declaration. -/
  complete : List.Forall₂ Parameter.Holds layout.parameters
    (properties.filter (! ·.isTexture) ++ properties.filter (·.isTexture))
  /-- Each parameter is placed behind those before it. -/
  placed : ∀ before q after, layout.parameters = before ++ q :: after → Placed before q
  /-- The index of a texture is one word. -/
  word : ∀ q ∈ layout.parameters, q.isTexture = true → q.size.toNat = 4
  /-- Ranges increase, so no two share a byte. -/
  increasing : layout.parameters.Pairwise fun q r => q.last ≤ r.offset.toNat
  /-- Every parameter starts at a component of a register. -/
  aligned : ∀ q ∈ layout.parameters, 4 ∣ q.offset.toNat
  /-- No parameter reaches over the end of a register. -/
  within : ∀ q ∈ layout.parameters, q.offset.toNat % 16 + q.size.toNat ≤ 16
  /-- The sum that is the end of a parameter does not wrap. -/
  exact : ∀ q ∈ layout.parameters, q.endOffset.toNat = q.last
  /-- The size is the least multiple of 256 that is not below the end of the last parameter. -/
  size : IsLeast {n | 256 ∣ n ∧ endOf layout.parameters ≤ n} layout.size.toNat
  /-- Only without properties there is no buffer. -/
  empty : layout.size = 0 ↔ properties = []

theorem Regular.mem {properties : List Property} {layout : Layout}
    (regular : Regular properties layout) {q : Parameter} (mem : q ∈ layout.parameters) :
    ∃ p ∈ properties, q.Holds p := by
  obtain ⟨p, mem', holds⟩ := exists_right_of_forall₂ regular.complete mem
  rcases List.mem_append.1 mem' with mem' | mem'
  · exact ⟨p, (List.mem_filter.1 mem').1, holds⟩
  · exact ⟨p, (List.mem_filter.1 mem').1, holds⟩

theorem isTexture_of_mem_placeValues {offset : UInt32} {properties : List Property}
    {q : Parameter} (mem : q ∈ (placeValues offset properties).1) : q.isTexture = false := by
  obtain ⟨p, mem', holds⟩ := exists_right_of_forall₂ (placeValues_holds offset properties) mem
  rw [holds.isTexture]
  simpa using (List.mem_filter.1 mem').2

theorem isTexture_of_mem_placeTextures {offset ordinal : UInt32} {properties : List Property}
    {q : Parameter} (mem : q ∈ (placeTextures offset ordinal properties).1) :
    q.isTexture = true := by
  obtain ⟨p, mem', holds⟩ :=
    exists_right_of_forall₂ (placeTextures_holds offset ordinal properties) mem
  rw [holds.isTexture]
  exact (List.mem_filter.1 mem').2

theorem complete_ofProperties (properties : List Property) :
    List.Forall₂ Parameter.Holds (ofProperties properties).parameters
      (properties.filter (! ·.isTexture) ++ properties.filter (·.isTexture)) :=
  List.rel_append (placeValues_holds _ properties) (placeTextures_holds _ _ properties)

/-- The values of a layout that fits stand one behind the other, and the textures start where
they end. -/
theorem values_of_fits {properties : List Property} (fits : Fits properties) :
    let values := placeValues 0 properties
    AllPlaced [] values.1 ∧ values.2.toNat = valuesEnd 0 properties ∧
      endOf values.1 = valuesEnd 0 properties ∧
      (alignUp values.2 4).toNat = valuesEnd 0 properties := by
  have room := fits.exactEnd_le
  rw [exactEnd, UInt32.size] at room
  obtain ⟨all, last, final, multiple⟩ := placeValues_placed properties 0 [] rfl (Nat.dvd_zero 4)
    (by rw [UInt32.toNat_zero, UInt32.size]; omega)
  rw [UInt32.toNat_zero] at last final multiple
  refine ⟨all, last, final, ?_⟩
  have below : valuesEnd 0 properties + 4 ≤ UInt32.size := by rw [UInt32.size]; omega
  rw [toNat_alignUp (k := 2) rfl (by rw [last]; exact below), last]
  -- A multiple of four is rounded up to itself.
  simp only [roundUp, UInt32.reduceToNat]
  omega

/-- The textures of a layout that fits stand one behind the other behind the values. -/
theorem textures_of_fits {properties : List Property} (fits : Fits properties) :
    let values := placeValues 0 properties
    let textures := placeTextures (alignUp values.2 4) 0 properties
    AllPlaced values.1 textures.1 ∧ textures.2.toNat = exactEnd properties ∧
      endOf (values.1 ++ textures.1) = exactEnd properties := by
  have room := fits.exactEnd_le
  obtain ⟨_, _, final, start⟩ := values_of_fits fits
  have none : ordinalAfter (placeValues 0 properties).1 = 0 := by
    rw [ordinalAfter, List.length_eq_zero_iff, List.filter_eq_nil_iff]
    exact fun q mem => by simp [isTexture_of_mem_placeValues mem]
  have placed := placeTextures_placed properties (alignUp (placeValues 0 properties).2 4) 0
    (placeValues 0 properties).1 (start.trans final.symm) (by rw [none]; rfl)
  rw [start, UInt32.toNat_zero] at placed
  rw [exactEnd, UInt32.size] at *
  exact placed (by omega) (by omega)

/-- The parameters stand one behind the other, and end where exact arithmetic says. -/
theorem allPlaced_of_fits {properties : List Property} (fits : Fits properties) :
    AllPlaced [] (ofProperties properties).parameters ∧
      endOf (ofProperties properties).parameters = exactEnd properties ∧
      (ofProperties properties).size.toNat = exactSize properties := by
  obtain ⟨textures, last, final⟩ := textures_of_fits fits
  refine ⟨(values_of_fits fits).1.append textures, final, ?_⟩
  rw [exactSize, ← last]
  exact toNat_alignUp (k := 8) rfl (by rw [last]; exact fits.exactEnd_le)

theorem parameters_ofProperties_eq_nil {properties : List Property} :
    (ofProperties properties).parameters = [] ↔ properties = [] := by
  constructor
  · intro none
    have complete := complete_ofProperties properties
    rw [none, List.forall₂_nil_left_iff, List.append_eq_nil_iff, List.filter_eq_nil_iff,
      List.filter_eq_nil_iff] at complete
    refine List.eq_nil_iff_forall_not_mem.2 fun p mem => ?_
    exact complete.1 p mem (by simpa using complete.2 p mem)
  · rintro rfl
    rfl

theorem regular_of_fits {properties : List Property} (fits : Fits properties) :
    Regular properties (ofProperties properties) := by
  obtain ⟨all, final, size⟩ := allPlaced_of_fits fits
  have room := fits.exactEnd_le
  have least := roundUp_isLeast (exactEnd properties) (by decide : 0 < 256)
  have aligned := all.four_dvd_offset (Nat.dvd_zero 4)
  have behind {q : Parameter} (mem : q ∈ (ofProperties properties).parameters) :
      q.last ≤ exactEnd properties := final ▸ all.last_le q mem
  have placed {before after : List Parameter} {q : Parameter}
      (split : (ofProperties properties).parameters = before ++ q :: after) : Placed before q := by
    rw [split] at all
    exact all.placed
  refine ⟨complete_ofProperties properties, fun _ _ _ => placed, fun q _ texture => ?_,
    all.increasing, aligned, fun q mem => ?_, fun q mem => ?_, ?_, ?_⟩
  · rw [Parameter.size_of_isTexture texture]
    rfl
  · cases texture : q.isTexture with
    | true =>
      have multiple := aligned q mem
      rw [Parameter.size_of_isTexture texture]
      simp only [UInt32.reduceToNat]
      omega
    | false =>
      obtain ⟨before, after, split⟩ := List.append_of_mem mem
      have inside := ((placed split).value texture).1.1.2.2
      omega
  · have bound := behind mem
    rw [Parameter.endOffset, UInt32.toNat_add]
    exact Nat.mod_eq_of_lt (by rw [Parameter.last, UInt32.size] at *; omega)
  · rw [size, final]
    exact least
  · rw [← parameters_ofProperties_eq_nil, ← UInt32.toNat_inj, size]
    constructor
    · intro zero
      refine List.eq_nil_iff_forall_not_mem.2 fun q mem => ?_
      have positive := q.type.size_pos
      have bound := behind mem
      have above := least.1.2
      rw [Parameter.last, Parameter.size] at bound
      rw [exactSize, UInt32.toNat_zero] at zero
      omega
    · intro none
      rw [exactSize, ← final, none]
      rfl

end Layout

end SurfaceShading
