/-
  Packing. The bytes of a parameter are found again at its place as long as no set value is
  wider than the parameter that it goes to (`Material.slice_packed`), which is so when the names
  of the properties differ (`Material.length_parameterBytes`). Then the constant buffer is, place
  by place, the value in force or the slot of a texture, and zero elsewhere
  (`Session.packs_exactly`).
-/
import SurfaceShading.Proofs.Layout.Placement
import SurfaceShading.Proofs.Material.Session
import Mathlib.Data.List.Nodup

namespace SurfaceShading

namespace Layout

variable {properties : List Property} {q : Parameter}

/-- Nothing reaches behind the end of the constant buffer. -/
theorem last_le_size (fits : Fits properties) (mem : q ∈ (ofProperties properties).parameters) :
    q.last ≤ (ofProperties properties).size.toNat := by
  obtain ⟨all, final, _⟩ := allPlaced_of_fits fits
  have above := (regular_of_fits fits).size.1.2
  exact Nat.le_trans (all.last_le q mem) above

theorem map_name_ofProperties (properties : List Property) :
    (ofProperties properties).parameters.map Parameter.name =
      (properties.filter (! ·.isTexture) ++ properties.filter (·.isTexture)).map Property.name := by
  have complete := (complete_ofProperties properties).imp fun _ _ holds => holds.name
  rw [← List.forall₂_eq_eq_eq, List.forall₂_map_left_iff, List.forall₂_map_right_iff]
  exact complete

/-- The names of the parameters differ if those of the properties do. -/
theorem nodup_names (distinct : (properties.map Property.name).Nodup) :
    ((ofProperties properties).parameters.map Parameter.name).Nodup := by
  have perm : (properties.filter (! ·.isTexture) ++ properties.filter (·.isTexture)).Perm
      properties := by
    simpa using List.filter_append_perm (fun p : Property => ! p.isTexture) properties
  rw [map_name_ofProperties]
  exact (perm.map Property.name).nodup_iff.2 distinct

/-- Of parameters with names that differ, each is the one of its name. -/
theorem parameter?_of_mem {layout : Layout}
    (distinct : (layout.parameters.map Parameter.name).Nodup) (mem : q ∈ layout.parameters) :
    layout.parameter? q.name = some q := by
  cases found : layout.parameter? q.name with
  | none => simpa using List.find?_eq_none.1 found q mem
  | some q' =>
    have same : q'.name = q.name := by simpa using List.find?_some found
    rw [List.inj_on_of_nodup_map distinct (List.mem_of_find?_eq_some found) mem same]

end Layout

theorem Shader.layout_of_ofDefinition {definition : Definition} {shared : Bool} {limit : UInt32}
    {shader : Shader} (made : ofDefinition definition shared limit = .ok shader) :
    shader.layout = Layout.ofProperties definition.properties := by
  rw [eq_of_ofDefinition made]

/-! ## Pieces in their places -/

theorem PropertyType.toNat_size_value (t : ValueType) :
    (PropertyType.value t).size.toNat = 4 * t.wordCount := by
  cases t <;> rfl

namespace Material

variable {m : Material} {q : Parameter} {p : Property} {properties : List Property}

theorem parameterBytes_of_value {t : ValueType} (holds : q.Holds p) (is : p.type = .value t) :
    m.parameterBytes q = ((m.values.get? p.name).getD (p.defaultValue t)).bytes := by
  have content : q.content = .value (p.defaultValue t) := by
    rw [holds.content, Property.content, is]
  rw [parameterBytes, content, holds.name]

theorem parameterBytes_of_texture {d : TextureDimension} (holds : q.Holds p)
    (is : p.type = .texture d) :
    m.parameterBytes q = Bytes.ofWord (UInt32.ofNat (m.textureIndex p.name)) := by
  have content : q.content = .texture d p.default := by
    rw [holds.content, Property.content, is]
  rw [parameterBytes, content, holds.name]

/-- The bytes of a parameter fill its place if a value that is set for it is as wide. -/
theorem length_parameterBytes (holds : q.Holds p)
    (wide : ∀ value, m.values.get? p.name = some value → p.isTexture = false →
      (PropertyType.value value.type).size = p.type.size) :
    (m.parameterBytes q).length = q.size.toNat := by
  rw [holds.size]
  cases is : p.type with
  | texture d => rw [parameterBytes_of_texture holds is]; rfl
  | value t =>
    rw [parameterBytes_of_value holds is, Value.length_bytes, ← PropertyType.toNat_size_value]
    cases set : m.values.get? p.name with
    | none => rw [Option.getD_none, p.type_defaultValue]
    | some value =>
      rw [Option.getD_some, wide value set (Property.isTexture_of_value is), is]

/-- Every piece is found again in its place if all fill their places. -/
theorem slice_packed (fits : Layout.Fits properties)
    (layout : m.shader.layout = Layout.ofProperties properties)
    (filled : ∀ q ∈ m.shader.layout.parameters, (m.parameterBytes q).length = q.size.toNat)
    (mem : q ∈ m.shader.layout.parameters) :
    Bytes.slice m.packed q.offset.toNat q.size.toNat = m.parameterBytes q := by
  have regular := Layout.regular_of_fits fits
  rw [← layout] at regular
  have increasing : m.pieces.Pairwise fun a b => a.1 + a.2.length ≤ b.1 := by
    refine List.pairwise_map.2 (regular.increasing.imp_of_mem fun here _ le => ?_)
    rw [filled _ here]
    exact le
  have room := Layout.last_le_size fits (layout ▸ mem)
  rw [← layout] at room
  have piece : (q.offset.toNat, m.parameterBytes q) ∈ m.pieces := List.mem_map_of_mem mem
  rw [packed_eq_layAll, ← filled q mem]
  refine Bytes.slice_layAll increasing piece ?_
  rw [List.length_replicate, filled q mem]
  exact room

/-- Outside all places there are zeros. -/
theorem packed_outside (filled : ∀ q ∈ m.shader.layout.parameters,
      (m.parameterBytes q).length = q.size.toNat) {i : Nat} (lt : i < m.shader.bufferSize)
    (outside : ∀ q ∈ m.shader.layout.parameters, i < q.offset.toNat ∨ q.last ≤ i) :
    m.packed[i]? = some 0 := by
  rw [packed_eq_layAll, Bytes.getElem?_layAll_of_outside]
  · rw [List.getElem?_replicate, if_pos lt]
  · intro piece listed
    obtain ⟨q, mem, rfl⟩ := List.mem_map.1 listed
    rw [filled q mem]
    exact outside q mem

/-! ## What is in force -/

/-- The value in force for a property: the one that is set, else the one that the text of the
default says, else zero. -/
inductive InForce (m : Material) (p : Property) (t : ValueType) : Value → Prop where
  | set {v : Value} (is : m.values.get? p.name = some v) : InForce m p t v
  | default {text : String} {v : Value} (unset : m.values.get? p.name = none)
      (is : p.default = some text) (read : Value.parse (.value t) text = .ok v) : InForce m p t v
  | missing (unset : m.values.get? p.name = none) (is : p.default = none) :
      InForce m p t (.zero t)
  | invalid {text : String} {e : ValueError} (unset : m.values.get? p.name = none)
      (is : p.default = some text) (read : Value.parse (.value t) text = .error e) :
      InForce m p t (.zero t)

theorem inForce_getD (m : Material) (p : Property) (t : ValueType) :
    InForce m p t ((m.values.get? p.name).getD (p.defaultValue t)) := by
  cases set : m.values.get? p.name with
  | some v => exact .set set
  | none =>
    rw [Option.getD_none]
    unfold Property.defaultValue
    split
    · next is => exact .missing set is
    · next text is =>
      split
      · next read => exact .default set is read
      · next read => exact .invalid set is read

theorem textureIndex_lt (valid : m.Valid) (name : String) : m.textureIndex name < indexSpace := by
  unfold textureIndex
  split
  · next is => exact valid.indexed name _ is
  · split
    · exact TextureTable.defaultIndex_lt _
    · exact TextureTable.defaultIndex_lt _

/-- Bytes that hold what is in force for a property: the words of the value, which they can be
read back to, or the slot of the texture. -/
inductive HoldsInForce (m : Material) (p : Property) (bytes : List UInt8) : Prop where
  | value {t : ValueType} {v : Value} (is : p.type = .value t) (inForce : InForce m p t v)
      (answers : m.value? p.name = some v) (writes : Bytes.Writes bytes v.words)
      (read : Value.ofWords? t (Bytes.toWords bytes) = some v)
  | texture {d : TextureDimension} {w : UInt32} (is : p.type = .texture d)
      (slot : w.toNat = m.textureIndex p.name) (writes : Bytes.Writes bytes [w])
      (read : Bytes.toWords bytes = [w])

/-- The constant buffer is packed exactly. -/
structure PacksExactly (properties : List Property) (m : Material) : Prop where
  length : m.pack.staging.length = m.shader.bufferSize
  /-- Every property has a place, the values before the textures, and what is in force for it
  is there. -/
  places : List.Forall₂
    (fun q p => q.Holds p ∧
      HoldsInForce m p (Bytes.slice m.pack.staging q.offset.toNat q.size.toNat))
    m.shader.layout.parameters
    (properties.filter (! ·.isTexture) ++ properties.filter (·.isTexture))
  /-- Outside all places there are zeros. -/
  zero : ∀ i < m.shader.bufferSize,
    (∀ q ∈ m.shader.layout.parameters, i < q.offset.toNat ∨ q.last ≤ i) →
    m.pack.staging[i]? = some 0
  /-- What was packed before does not matter. -/
  fresh : ∀ staging, ({ m with staging := staging } : Material).pack = m.pack

/-- In a material of a shader whose properties have different names, a set value has the type
of its property. -/
theorem type_of_set (layout : m.shader.layout = Layout.ofProperties properties)
    (distinct : (properties.map Property.name).Nodup) (valid : m.Valid)
    (mem : q ∈ m.shader.layout.parameters) (holds : q.Holds p) {value : Value}
    (set : m.values.get? p.name = some value) : p.type = .value value.type := by
  obtain ⟨q', found, type⟩ := valid.typed p.name value set
  have names := Layout.nodup_names distinct
  rw [← layout] at names
  have own : m.shader.parameter? q.name = some q := Layout.parameter?_of_mem names mem
  rw [holds.name, found] at own
  cases own
  rw [← holds.type, type]

/-- The place of a property holds what is in force for it. -/
theorem holdsInForce {bytes : List UInt8} (valid : m.Valid)
    (own : m.shader.parameter? q.name = some q) (holds : q.Holds p)
    (typed : ∀ value, m.values.get? p.name = some value → p.type = .value value.type)
    (is : bytes = m.parameterBytes q) : HoldsInForce m p bytes := by
  rw [holds.name] at own
  cases type : p.type with
  | texture d =>
    have lt := textureIndex_lt valid p.name
    rw [parameterBytes_of_texture holds type] at is
    have word : bytes = [UInt32.ofNat (m.textureIndex p.name)].flatMap Bytes.ofWord := by
      rw [is, List.flatMap_singleton]
    refine .texture type (UInt32.toNat_ofNat_of_lt' lt) ?_ ?_
    · rw [word]; exact Bytes.writes_flatMap_ofWord _
    · rw [word]; exact Bytes.toWords_flatMap_ofWord _
  | value t =>
    rw [parameterBytes_of_value holds type] at is
    have inForce := inForce_getD m p t
    have answers : m.value? p.name = some ((m.values.get? p.name).getD (p.defaultValue t)) := by
      have default : q.default? = some (p.defaultValue t) := by
        rw [Parameter.default?, holds.content, Property.content, type]
      rw [value?, own, Option.bind_some, default]
      cases m.values.get? p.name <;> rfl
    have fits : ((m.values.get? p.name).getD (p.defaultValue t)).type = t := by
      cases set : m.values.get? p.name with
      | none => exact p.type_defaultValue t
      | some value =>
        have own := typed value set
        rw [type] at own
        exact (PropertyType.value.inj own).symm
    generalize (m.values.get? p.name).getD (p.defaultValue t) = v at is inForce answers fits
    refine .value type inForce answers ?_ ?_
    · rw [is]; exact v.writes_bytes
    · rw [is, ← fits]; exact v.ofWords?_toWords_bytes

theorem packsExactly (fits : Layout.Fits properties)
    (layout : m.shader.layout = Layout.ofProperties properties)
    (distinct : (properties.map Property.name).Nodup) (valid : m.Valid) :
    m.PacksExactly properties := by
  have names := Layout.nodup_names distinct
  have complete := Layout.complete_ofProperties properties
  rw [← layout] at names complete
  have typed {q : Parameter} {p : Property} (mem : q ∈ m.shader.layout.parameters)
      (holds : q.Holds p) (value : Value) (set : m.values.get? p.name = some value) :
      p.type = .value value.type := type_of_set layout distinct valid mem holds set
  have filled : ∀ q ∈ m.shader.layout.parameters,
      (m.parameterBytes q).length = q.size.toNat := by
    intro q mem
    obtain ⟨p, _, holds⟩ := exists_right_of_forall₂ complete mem
    exact length_parameterBytes holds fun value set _ => by rw [typed mem holds value set]
  refine ⟨length_packed m, ?_, fun i lt outside => packed_outside filled lt outside,
    fun _ => rfl⟩
  have listed := (List.forall₂_and_left _ _).2
    ⟨fun q (mem : q ∈ m.shader.layout.parameters) => mem, complete⟩
  refine listed.imp fun q p ⟨mem, holds⟩ => ⟨holds, ?_⟩
  exact holdsInForce valid (Layout.parameter?_of_mem names mem) holds (typed mem holds)
    (slice_packed fits layout filled mem)

namespace Session

/-- **Packing is exact.** In every session of a material of a shader whose properties have
different names and whose layout fits, what is packed is what is in force, in the place of each
property, and zero elsewhere. -/
theorem packs_exactly {definition : Definition} {shared : Bool} {limit : UInt32} {shader : Shader}
    (made : Shader.ofDefinition definition shared limit = .ok shader)
    (fits : Layout.Fits definition.properties)
    (distinct : (definition.properties.map Property.name).Nodup)
    (name : String) (object : ShaderId) (host : Host) (ops : List Operation) :
    ((start name object shader host).run ops).material.PacksExactly definition.properties := by
  have sound := run_sound (start_sound name object shader host) ops
  have layout := Shader.layout_of_ofDefinition made
  rw [← sound.shader] at layout
  exact packsExactly fits layout distinct sound.valid

/-- A shader with a default that is read, one that is no number, and a texture. -/
def metal : Definition :=
  ⟨"Metal", .forward,
    [⟨"Roughness", .value .float, some "0.5", none, none, none⟩, .plain "Sky" (.texture .cube),
      ⟨"Tint", .value .vector4, some "red", none, none, none⟩, .plain "Wet" (.value .bool)],
    [], none⟩

/-- A material that sets one value and names a texture. -/
def wetMetal : Session :=
  (start "Metal" 0 ⟨metal, Layout.ofProperties metal.properties, false⟩
    (.new (.stub [] []) .empty)).run
    [.setValue "Wet" (.bool true), .setTexturePath "Sky" "sky.ppm", .update]

theorem wetMetal_packs_exactly :
    Shader.ofDefinition metal false 65536 =
      .ok ⟨metal, Layout.ofProperties metal.properties, false⟩ ∧
    Layout.Fits metal.properties ∧ (metal.properties.map Property.name).Nodup ∧
    wetMetal.material.PacksExactly metal.properties ∧
    wetMetal.material.pack.staging =
      [0, 0, 0, 63] ++ List.replicate 28 0 ++ [1, 0, 0, 0, 1, 0, 0, 0] ++ List.replicate 216 0 :=
  have made : Shader.ofDefinition metal false 65536 =
      .ok ⟨metal, Layout.ofProperties metal.properties, false⟩ := rfl
  ⟨made, by decide, by decide, packs_exactly made (by decide) (by decide) _ _ _ _,
    by decide +kernel⟩

end Session

end Material

end SurfaceShading
