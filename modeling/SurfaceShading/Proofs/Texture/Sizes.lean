/-
  How many bytes texture data has. A texture takes four bytes for each texel of each layer, and
  the data of white textures and of decoded images is that long (`TextureData.Whole`). Data that
  is flat becomes a cube exactly if its height is six times its width, and then it is as long as
  the cube takes (`TextureData.whole_of_toCube`). If six widths have more than 32 bits, the
  program breaks off instead (`TextureData.toCube_eq_none`).
-/
import SurfaceShading.Host
import SurfaceShading.Proofs.Outcome
import Mathlib.Tactic.Ring

namespace SurfaceShading

/-- The number of bytes that a texture takes. -/
def TextureDescriptor.byteCount (d : TextureDescriptor) : Nat :=
  4 * d.width.toNat * d.height.toNat * d.dimension.layers

/-! ## Decoded images -/

namespace Image

/-- An image with all of its bytes. -/
def Complete (image : Image) : Prop :=
  image.data.length = 4 * image.width.toNat * image.height.toNat

theorem length_addAlpha {bytes : List UInt8} {n : Nat} (length : bytes.length = 3 * n) :
    (addAlpha bytes).length = 4 * n := by
  induction n generalizing bytes with
  | zero =>
    rw [List.eq_nil_of_length_eq_zero length]
    rfl
  | succ n ih =>
    match bytes, length with
    | r :: g :: b :: rest, length =>
      have shorter : rest.length = 3 * n := by
        simp only [List.length_cons] at length
        omega
      rw [addAlpha]
      simp only [List.length_cons, ih shorter]
      omega

theorem tokenNumber?_lt {token : List UInt8} {n : Nat} (is : tokenNumber? token = some n) :
    n < UInt32.size := by
  unfold tokenNumber? at is
  extract_lets digits number at is
  split at is
  · cases is
  · split at is
    · next lt => exact Option.some.inj is ▸ lt
    · cases is

theorem headerNumber?_lt {bytes rest : List UInt8} {n : Nat}
    (read : headerNumber? bytes = some (n, rest)) : n < UInt32.size := by
  obtain ⟨⟨token, rest'⟩, -, later⟩ := Option.bind_eq_some_iff.1 read
  obtain ⟨m, number, is⟩ := Option.bind_eq_some_iff.1 later
  cases is
  exact tokenNumber?_lt number

/-- What is decoded has all of its bytes. -/
theorem complete_of_decode {bytes : List UInt8} {image : Image}
    (decoded : decode? bytes = some image) : image.Complete := by
  unfold decode? at decoded
  split at decoded
  · obtain ⟨⟨width, rest⟩, readWidth, decoded⟩ := Option.bind_eq_some_iff.1 decoded
    obtain ⟨⟨height, rest'⟩, readHeight, decoded⟩ := Option.bind_eq_some_iff.1 decoded
    obtain ⟨⟨maximum, rest''⟩, -, decoded⟩ := Option.bind_eq_some_iff.1 decoded
    dsimp only at decoded
    split at decoded
    · next enough =>
      cases decoded
      have length : (rest''.take (3 * width * height)).length = 3 * (width * height) := by
        rw [List.length_take, Nat.min_eq_left enough.2, Nat.mul_assoc]
      rw [Complete, length_addAlpha length, UInt32.toNat_ofNat_of_lt' (headerNumber?_lt readWidth),
        UInt32.toNat_ofNat_of_lt' (headerNumber?_lt readHeight), Nat.mul_assoc]
    · cases decoded
  · cases decoded

end Image

/-! ## Strips and cubes -/

namespace TextureData

/-- The data is as long as the descriptor says. -/
def Whole (t : TextureData) : Prop := t.data.length = t.descriptor.byteCount

/-- Six times the width is a number of 32 bits. -/
def Narrow (t : TextureData) : Prop := 6 * t.width.toNat < UInt32.size

theorem whole_white (dimension : TextureDimension) : (white dimension).Whole :=
  List.length_replicate.trans (by cases dimension <;> rfl)

theorem whole_ofImage {image : Image} (complete : image.Complete) (name : String) :
    (ofImage image name).Whole := by
  rw [Whole, TextureDescriptor.byteCount]
  exact complete.trans (Nat.mul_one _).symm

/-! ## Products of 32 bits -/

theorem product?_eq_some {a b c : UInt32} :
    product? a b = some c ↔ a.toNat * b.toNat = c.toNat := by
  unfold product?
  split
  · next fits =>
    have product : (a * b).toNat = a.toNat * b.toNat := by
      rw [UInt32.toNat_mul, Nat.mod_eq_of_lt fits]
    rw [Option.some_inj, ← UInt32.toNat_inj, product]
  · next wide => exact iff_of_false nofun fun same => wide (same ▸ c.toNat_lt_size)

theorem product?_eq_none {a b : UInt32} :
    product? a b = none ↔ ¬ a.toNat * b.toNat < UInt32.size := by
  unfold product?
  split
  · next fits => exact iff_of_false nofun (absurd fits)
  · next wide => exact iff_of_true rfl wide

theorem toNat_six : (6 : UInt32).toNat = 6 := rfl

theorem sixWidths_eq_some {t : TextureData} {strip : UInt32} :
    product? t.width 6 = some strip ↔ 6 * t.width.toNat = strip.toNat := by
  rw [product?_eq_some, toNat_six, Nat.mul_comm]

theorem sixWidths_eq_none {t : TextureData} : product? t.width 6 = none ↔ ¬ t.Narrow := by
  rw [product?_eq_none, toNat_six, Nat.mul_comm, Narrow]

/-! ## Strips of six faces -/

section

variable {t : TextureData}

theorem toCube_flat (flat : t.dimension = .d2) :
    t.toCube = (product? t.width 6).map fun strip =>
      if t.height = strip then .ok { t with height := t.width, dimension := .cube }
      else .error t.notStrip := by
  rw [toCube, flat]
  cases product? t.width 6 with
  | none => rfl
  | some strip => exact (apply_ite some _ _ _).symm

/-- Flat data becomes a cube if it is a strip. -/
theorem toCube_eq_ok {c : TextureData} (flat : t.dimension = .d2) :
    t.toCube = some (.ok c) ↔ t.height.toNat = 6 * t.width.toNat ∧
      c = { t with height := t.width, dimension := .cube } := by
  rw [toCube_flat flat, Option.map_eq_some_iff]
  constructor
  · rintro ⟨strip, product, made⟩
    split at made
    · next same =>
      cases made
      exact ⟨same ▸ (sixWidths_eq_some.1 product).symm, rfl⟩
    · cases made
  · rintro ⟨strip, rfl⟩
    exact ⟨t.height, sixWidths_eq_some.2 strip.symm, if_pos rfl⟩

/-- It is refused if it is none, as long as that can be told. -/
theorem toCube_eq_error {e : DeviceError} (flat : t.dimension = .d2) :
    t.toCube = some (.error e) ↔
      t.Narrow ∧ t.height.toNat ≠ 6 * t.width.toNat ∧ e = t.notStrip := by
  rw [toCube_flat flat, Option.map_eq_some_iff]
  constructor
  · rintro ⟨strip, product, refused⟩
    have six := sixWidths_eq_some.1 product
    split at refused
    · cases refused
    · next other =>
      cases refused
      refine ⟨?_, fun same => other (UInt32.toNat_inj.1 (same.trans six)), rfl⟩
      rw [Narrow, six]
      exact strip.toNat_lt_size
  · rintro ⟨narrow, other, rfl⟩
    cases product : product? t.width 6 with
    | none => exact absurd narrow (sixWidths_eq_none.1 product)
    | some strip =>
      refine ⟨strip, rfl, if_neg fun same => other ?_⟩
      rw [same, sixWidths_eq_some.1 product]

/-- That cannot be told if six widths have more than 32 bits. -/
theorem toCube_eq_none : t.toCube = none ↔ t.dimension = .d2 ∧ ¬ t.Narrow := by
  cases shape : t.dimension with
  | cube =>
    rw [toCube, shape]
    exact iff_of_false nofun fun is => nomatch is.1
  | d2 =>
    rw [toCube_flat shape, Option.map_eq_none_iff, sixWidths_eq_none, and_iff_right rfl]

end

/-- A cube made of a whole strip is whole. -/
theorem whole_of_toCube {t c : TextureData} (flat : t.dimension = .d2) (whole : t.Whole)
    (cube : t.toCube = some (.ok c)) : c.Whole := by
  obtain ⟨strip, rfl⟩ := (toCube_eq_ok flat).1 cube
  have length : t.data.length = 4 * t.width.toNat * t.height.toNat := by
    rw [whole, TextureDescriptor.byteCount, descriptor, flat]
    exact Nat.mul_one _
  calc t.data.length
      = 4 * t.width.toNat * (6 * t.width.toNat) := by rw [length, strip]
    _ = 4 * t.width.toNat * t.width.toNat * 6 := by ring

/-- Whole data in the wanted shape is whole. -/
theorem whole_of_shaped {t t' : TextureData} {dimension : TextureDimension}
    (flat : t.dimension = .d2) (whole : t.Whole) (shape : t.shaped dimension = some (.ok t')) :
    t'.Whole := by
  cases dimension with
  | d2 =>
    cases shape
    exact whole
  | cube => exact whole_of_toCube flat whole shape

theorem not_narrow_of_shaped {t : TextureData} {dimension : TextureDimension}
    (fault : t.shaped dimension = none) : ¬ t.Narrow := by
  cases dimension with
  | d2 => cases fault
  | cube => exact (toCube_eq_none.1 fault).2

/-- What is read from a file is flat and whole. -/
theorem whole_ofFile {disk : Disk} {path : String} {t : TextureData}
    (read : ofFile disk path = .ok t) : t.dimension = .d2 ∧ t.Whole := by
  unfold ofFile at read
  dsimp only at read
  split at read
  · split at read
    · next image decoded =>
      cases read
      exact ⟨rfl, whole_ofImage (Image.complete_of_decode decoded) _⟩
    · cases read
  · cases read

end TextureData

/-- A file of the disk holds an image that is too wide to be told from a strip. -/
def Disk.HoldsWide (disk : Disk) : Prop :=
  ∃ path t, TextureData.ofFile disk path = .ok t ∧ ¬ t.Narrow

theorem Loader.whole_stubData (path : String) (dimension : TextureDimension) :
    (stubData path dimension).Whole :=
  List.length_replicate.trans (by cases dimension <;> rfl)

end SurfaceShading
