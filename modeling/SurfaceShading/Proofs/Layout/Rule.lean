/-
  The rule of the layout for lists that are not too long. `Layout.Checked` makes the same layout
  with sums and differences that refuse to wrap; for up to `2 ^ 27` properties nothing is refused
  and the layout is regular (`Layout.checked_and_regular`). No property takes more than one
  register, its padding included, which bounds the end of the layout (`exactEnd_le`).
-/
import SurfaceShading.Proofs.Layout.Placement

namespace SurfaceShading

namespace Layout

/-! ## The layout with checked arithmetic -/

namespace Checked

/-- A sum of words, refused if it is no word. -/
def add (a b : UInt32) : Option UInt32 :=
  if a.toNat + b.toNat < UInt32.size then some (a + b) else none

/-- A difference of words, refused if it is below zero. -/
def sub (a b : UInt32) : Option UInt32 := if b.toNat ≤ a.toNat then some (a - b) else none

def alignUp (value alignment : UInt32) : Option UInt32 := do
  let sum ← add value alignment
  let reach ← sub sum 1
  let mask ← sub alignment 1
  some (reach &&& ~~~mask)

def fit (offset size : UInt32) : Option UInt32 := do
  let reach ← add (offset % registerSize) size
  if reach > registerSize then alignUp offset registerSize else some offset

def placeValues (offset : UInt32) : List Property → Option (List Parameter × UInt32)
  | [] => some ([], offset)
  | p :: rest =>
    match p.type with
    | .texture _ => placeValues offset rest
    | .value t => do
      let start ← fit offset p.type.size
      let next ← add start p.type.size
      let (placed, last) ← placeValues next rest
      some (p.valueAt t start :: placed, last)

def placeTextures (offset ordinal : UInt32) : List Property → Option (List Parameter × UInt32)
  | [] => some ([], offset)
  | p :: rest =>
    match p.type with
    | .value _ => placeTextures offset ordinal rest
    | .texture d => do
      let next ← add offset p.type.size
      let following ← add ordinal 1
      let (placed, last) ← placeTextures next following rest
      some (p.textureAt d ordinal offset :: placed, last)

/-- The layout of a list of properties, unless some sum or difference would wrap. -/
def ofProperties (properties : List Property) : Option Layout := do
  let (values, valuesEnd) ← placeValues 0 properties
  let textureStart ← alignUp valuesEnd 4
  let (textures, texturesEnd) ← placeTextures textureStart 0 properties
  let size ← alignUp texturesEnd bufferAlignment
  some ⟨values ++ textures, size⟩

theorem add_eq {a b : UInt32} (fits : a.toNat + b.toNat < UInt32.size) :
    add a b = some (a + b) := if_pos fits

theorem alignUp_eq {value alignment : UInt32} (positive : 0 < alignment.toNat)
    (fits : value.toNat + alignment.toNat < UInt32.size) :
    alignUp value alignment = some (SurfaceShading.alignUp value alignment) := by
  have reach : (1 : UInt32).toNat ≤ (value + alignment).toNat := by
    rw [UInt32.toNat_add, UInt32.toNat_one, Nat.mod_eq_of_lt fits]
    omega
  rw [alignUp, add_eq fits, Option.bind_eq_bind, Option.bind_some, sub, if_pos reach, sub,
    if_pos (by rw [UInt32.toNat_one]; exact positive)]
  rfl

theorem fit_eq {offset size : UInt32} (le : size.toNat ≤ 16)
    (fits : offset.toNat + 16 < UInt32.size) :
    fit offset size = some (Layout.fit offset size) := by
  have reach : (offset % registerSize).toNat + size.toNat < UInt32.size := by
    rw [UInt32.toNat_mod]
    simp only [registerSize, UInt32.reduceToNat, UInt32.size]
    omega
  rw [fit, add_eq reach, Option.bind_eq_bind, Option.bind_some, Layout.fit]
  split
  · exact alignUp_eq (by decide) fits
  · rfl

theorem placeValues_eq (properties : List Property) (offset : UInt32)
    (fits : valuesEnd offset.toNat properties + 16 < UInt32.size) :
    placeValues offset properties = some (Layout.placeValues offset properties) := by
  induction properties generalizing offset with
  | nil => rfl
  | cons p rest ih =>
    rw [placeValues]
    cases is : p.type with
    | texture d =>
      rw [valuesEnd, if_pos (Property.isTexture_of_texture is)] at fits
      rw [placeValues_cons_texture offset rest is]
      exact ih offset fits
    | value t =>
      rw [valuesEnd, if_neg (by simp [Property.isTexture_of_value is])] at fits
      rw [placeValues_cons_value offset rest is, ← is]
      have room := le_valuesEnd (exactFit offset.toNat p.type.size.toNat + p.type.size.toNat) rest
      have start := le_exactFit offset.toNat p.type.size.toNat
      have here : (Layout.fit offset p.type.size).toNat =
          exactFit offset.toNat p.type.size.toNat := toNat_fit p.type.size_le (by omega)
      have sum : (Layout.fit offset p.type.size).toNat + p.type.size.toNat < UInt32.size := by
        omega
      have next : (Layout.fit offset p.type.size + p.type.size).toNat =
          exactFit offset.toNat p.type.size.toNat + p.type.size.toNat := by
        rw [UInt32.toNat_add, here]
        exact Nat.mod_eq_of_lt (here ▸ sum)
      simp only [Option.bind_eq_bind, fit_eq p.type.size_le (by omega : offset.toNat + 16 < _),
        add_eq sum, ih _ (next ▸ fits), Option.bind_some]
      rw [is]

theorem placeTextures_eq (properties : List Property) (offset ordinal : UInt32)
    (fits : offset.toNat + 4 * textureCount properties < UInt32.size)
    (room : ordinal.toNat + textureCount properties < UInt32.size) :
    placeTextures offset ordinal properties =
      some (Layout.placeTextures offset ordinal properties) := by
  induction properties generalizing offset ordinal with
  | nil => rfl
  | cons p rest ih =>
    rw [placeTextures]
    cases is : p.type with
    | value t =>
      rw [textureCount_cons_value rest is] at fits room
      rw [placeTextures_cons_value offset ordinal rest is]
      exact ih offset ordinal fits room
    | texture d =>
      rw [textureCount_cons_texture rest is] at fits room
      rw [placeTextures_cons_texture offset ordinal rest is, ← is]
      have four : p.type.size.toNat = 4 := by rw [is]; rfl
      have sum : offset.toNat + p.type.size.toNat < UInt32.size := by omega
      have count : ordinal.toNat + (1 : UInt32).toNat < UInt32.size := by
        rw [UInt32.toNat_one]
        omega
      have next : (offset + p.type.size).toNat = offset.toNat + 4 := by
        rw [UInt32.toNat_add, Nat.mod_eq_of_lt sum, four]
      have following : (ordinal + 1).toNat = ordinal.toNat + 1 := by
        rw [UInt32.toNat_add, Nat.mod_eq_of_lt count, UInt32.toNat_one]
      simp only [Option.bind_eq_bind, add_eq sum, add_eq count, Option.bind_some,
        ih _ _ (by rw [next]; omega) (by rw [following]; omega)]
      rw [is]

/-- Where the layout ends well below the last word, no sum of it wraps. -/
theorem ofProperties_eq {properties : List Property}
    (room : exactEnd properties + 256 < UInt32.size) :
    ofProperties properties = some (Layout.ofProperties properties) := by
  have fits : Fits properties := by
    unfold Fits exactSize roundUp
    rw [UInt32.size] at *
    omega
  obtain ⟨_, valuesLast, _, textureStart⟩ := values_of_fits fits
  obtain ⟨_, texturesLast, _⟩ := textures_of_fits fits
  have ends : exactEnd properties = valuesEnd 0 properties + 4 * textureCount properties := rfl
  have values : placeValues 0 properties = some (Layout.placeValues 0 properties) :=
    placeValues_eq properties 0 (by rw [UInt32.toNat_zero]; omega)
  have start : alignUp (Layout.placeValues 0 properties).2 4 =
      some (SurfaceShading.alignUp (Layout.placeValues 0 properties).2 4) := by
    have reach : (Layout.placeValues 0 properties).2.toNat + 4 < UInt32.size := by omega
    exact alignUp_eq (by decide) reach
  have textures := placeTextures_eq properties
    (SurfaceShading.alignUp (Layout.placeValues 0 properties).2 4) 0
    (by rw [textureStart]; omega) (by rw [UInt32.toNat_zero]; omega)
  have size : ∀ last : UInt32, last.toNat = exactEnd properties →
      alignUp last bufferAlignment = some (SurfaceShading.alignUp last bufferAlignment) := by
    intro last is
    exact alignUp_eq (by decide) (is ▸ room)
  simp only [ofProperties, values, start, textures, size _ texturesLast, Option.bind_eq_bind,
    Option.bind_some]
  rfl

end Checked

/-! ## Lists that are not too long -/

/-- A value takes at most what is left of a register and one more. -/
theorem valuesEnd_le (start : Nat) (properties : List Property) :
    valuesEnd start properties + 16 * textureCount properties ≤
      roundUp start 16 + 16 * properties.length := by
  induction properties generalizing start with
  | nil =>
    have le := (roundUp_isLeast start (by decide : 0 < 16)).1.2
    simpa [valuesEnd, textureCount] using le
  | cons p rest ih =>
    rw [List.length_cons]
    cases is : p.type with
    | texture d =>
      have bound := ih start
      rw [valuesEnd, if_pos (Property.isTexture_of_texture is), textureCount_cons_texture rest is]
      omega
    | value t =>
      have bound := ih (exactFit start p.type.size.toNat + p.type.size.toNat)
      have row : roundUp (exactFit start p.type.size.toNat + p.type.size.toNat) 16 ≤
          roundUp start 16 + 16 := by
        have le := p.type.size_le
        unfold exactFit roundUp
        split <;> omega
      rw [valuesEnd, if_neg (by simp [Property.isTexture_of_value is]),
        textureCount_cons_value rest is]
      omega

theorem exactEnd_le (properties : List Property) :
    exactEnd properties ≤ 16 * properties.length := by
  have bound := valuesEnd_le 0 properties
  have zero : roundUp 0 16 = 0 := rfl
  rw [exactEnd]
  omega

/-- **The rule of the layout.** For up to `2 ^ 27` properties no sum wraps, and the layout has
every property once, the values in the order of their declaration at the first places behind
each other that keep them within a register, the textures behind them word by word, and the
least size in steps of 256 bytes. -/
theorem checked_and_regular (properties : List Property) (few : properties.length ≤ 2 ^ 27) :
    Checked.ofProperties properties = some (ofProperties properties) ∧
      Regular properties (ofProperties properties) := by
  have bound := exactEnd_le properties
  have room : exactEnd properties + 256 < UInt32.size := by
    rw [UInt32.size]
    omega
  refine ⟨Checked.ofProperties_eq room, regular_of_fits ?_⟩
  unfold Fits exactSize roundUp
  rw [UInt32.size] at *
  omega

/-- A vector that has to leave a register, and textures between the values. -/
def mixed : List Property :=
  [.plain "Roughness" (.value .float), .plain "Albedo" (.texture .d2),
    .plain "Tint" (.value .vector4), .plain "Sky" (.texture .cube), .plain "Wet" (.value .bool)]

theorem mixed_checked_and_regular : mixed.length ≤ 2 ^ 27 ∧
    Checked.ofProperties mixed = some (ofProperties mixed) ∧
    Regular mixed (ofProperties mixed) ∧
    (ofProperties mixed).parameters.map (·.offset.toNat) = [0, 16, 32, 36, 40] :=
  have rule := checked_and_regular mixed (by decide)
  ⟨by decide, rule.1, rule.2, by decide⟩

end Layout

end SurfaceShading
