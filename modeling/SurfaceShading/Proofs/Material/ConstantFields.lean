/-
  The material constants as they are declared and as they are packed. The block of a generated
  source declares one field for each parameter, at its offset and of its size, within one
  register (`Source.fields_declare`). What is packed agrees with it in every session of a
  material unless values of one name have different widths: then a value that is set for the
  first of them is also written at the places of the others
  (`Session.fields_agree_iff_sameWidths`).
-/
import SurfaceShading.Proofs.Material.Packing
import SurfaceShading.Shader.Grammar.Reader

namespace SurfaceShading

namespace FieldDeclaration

/-- The size of a type of the native language. -/
def nativeSize? : String → Option Nat
  | "float" => some 4
  | "int" => some 4
  | "bool" => some 4
  | "uint" => some 4
  | "float2" => some 8
  | "float3" => some 12
  | "float4" => some 16
  | _ => none

/-- The ordinal of a component in its register. -/
def componentIndex? : String → Option Nat
  | "x" => some 0
  | "y" => some 1
  | "z" => some 2
  | "w" => some 3
  | _ => none

/-- The first byte that a declaration denotes, and the number of its bytes. -/
def range? (d : FieldDeclaration) : Option (Nat × Nat) := do
  let index ← componentIndex? d.component
  let size ← nativeSize? d.nativeType
  some (16 * d.row.toNat + 4 * index, size)

/-- The declaration denotes a range of bytes that lies within one register. -/
structure Denotes (d : FieldDeclaration) (offset size : Nat) : Prop where
  range : d.range? = some (offset, size)
  within : offset % 16 + size ≤ 16

theorem nativeSize?_nativeName (t : PropertyType) :
    nativeSize? t.nativeName = some t.size.toNat := by
  cases t with
  | value t => cases t <;> rfl
  | texture d => rfl

theorem componentIndex?_componentName (offset : Nat) :
    componentIndex? (componentName offset) = some (offset % 16 / 4) := by
  have four : offset % 16 / 4 = 0 ∨ offset % 16 / 4 = 1 ∨ offset % 16 / 4 = 2 ∨
      offset % 16 / 4 = 3 := by omega
  rcases four with is | is | is | is <;> rw [componentName, is] <;> rfl

theorem range?_ofParameter (q : Parameter) : (ofParameter q).range? =
    some (16 * (q.offset.toNat / 16) + 4 * (q.offset.toNat % 16 / 4), q.size.toNat) := by
  have row : (q.offset / registerSize).toNat = q.offset.toNat / 16 := UInt32.toNat_div _ _
  simp only [range?, ofParameter, componentIndex?_componentName, nativeSize?_nativeName, row,
    Option.bind_eq_bind, Option.bind_some]
  rfl

theorem denotes_ofParameter {q : Parameter} (aligned : 4 ∣ q.offset.toNat)
    (within : q.offset.toNat % 16 + q.size.toNat ≤ 16) :
    (ofParameter q).Denotes q.offset.toNat q.size.toNat := by
  have start : 16 * (q.offset.toNat / 16) + 4 * (q.offset.toNat % 16 / 4) = q.offset.toNat := by
    omega
  exact ⟨by rw [range?_ofParameter, start], within⟩

end FieldDeclaration

namespace Source

/-- The declaration of fields as the constants of a material. -/
def block (fields : List FieldDeclaration) : String :=
  if fields.isEmpty then "// No material constants\n"
  else
    "cbuffer MaterialConstants : register(b1)\n\x7b\n"
      ++ String.join (fields.map FieldDeclaration.text) ++ "\x7d;\n"

/-- The declarations of parameters. -/
def fields (parameters : List Parameter) : List FieldDeclaration :=
  parameters.map FieldDeclaration.ofParameter

theorem materialConstants_eq_block (parameters : List Parameter) :
    materialConstants parameters = block (fields parameters) := by
  cases parameters with
  | nil => rfl
  | cons q rest =>
    unfold materialConstants block fields
    rw [List.map_map]
    rfl

/-- Every generated source holds the block. -/
theorem generate_eq_append (definition : Definition) (index : Nat) (kind : PassKind)
    (parameters : List Parameter) (models : List ShadingModel) (options : SourceOptions) :
    ∃ before after, generate definition index kind parameters models options =
      before ++ block (fields parameters) ++ after := by
  rw [← materialConstants_eq_block]
  have further {text : String} (more : String)
      (is : ∃ before after, text = before ++ materialConstants parameters ++ after) :
      ∃ before after, text ++ more = before ++ materialConstants parameters ++ after := by
    obtain ⟨before, after, rfl⟩ := is
    exact ⟨before, after ++ more, by rw [String.append_assoc]⟩
  -- Seven parts follow the block.
  exact further _ (further _ (further _ (further _ (further _ (further _ (further _
    ⟨_, "", String.append_empty.symm⟩))))))

/-- The fields of a layout that fits denote the places of the parameters. -/
theorem fields_declare {properties : List Property} (fits : Layout.Fits properties) :
    List.Forall₂ (fun d q => d.field = q.fieldName ∧ d.Denotes q.offset.toNat q.size.toNat)
      (fields (Layout.ofProperties properties).parameters)
      (Layout.ofProperties properties).parameters := by
  have regular := Layout.regular_of_fits fits
  rw [fields, List.forall₂_map_left_iff, List.forall₂_same]
  exact fun q mem =>
    ⟨rfl, FieldDeclaration.denotes_ofParameter (regular.aligned q mem) (regular.within q mem)⟩

end Source

/-- Values of one name have one width. -/
def SameWidths (properties : List Property) : Prop :=
  ∀ p ∈ properties, ∀ p' ∈ properties, p.isTexture = false → p'.isTexture = false →
    p.name = p'.name → p.type.size = p'.type.size

instance (properties : List Property) : Decidable (SameWidths properties) :=
  inferInstanceAs (Decidable (∀ p ∈ properties, ∀ p' ∈ properties, p.isTexture = false →
    p'.isTexture = false → p.name = p'.name → p.type.size = p'.type.size))

namespace Layout

/-- Every property has a parameter. -/
theorem exists_parameter {properties : List Property} {p : Property} (mem : p ∈ properties) :
    ∃ q ∈ (ofProperties properties).parameters, q.Holds p := by
  refine exists_right_of_forall₂ (complete_ofProperties properties).flip ?_
  cases is : p.isTexture with
  | false => exact List.mem_append_left _ (List.mem_filter.2 ⟨mem, by simp [is]⟩)
  | true => exact List.mem_append_right _ (List.mem_filter.2 ⟨mem, is⟩)

/-- The first parameter of the name of a value is that of a value: textures come later. -/
theorem parameter?_of_value {properties : List Property} {p : Property} (mem : p ∈ properties)
    (value : p.isTexture = false) :
    ∃ q t, (ofProperties properties).parameter? p.name = some q ∧ q.type = .value t := by
  have listed : p ∈ properties.filter (! ·.isTexture) := List.mem_filter.2 ⟨mem, by simp [value]⟩
  obtain ⟨q, here, holds⟩ :=
    exists_right_of_forall₂ (placeValues_holds 0 properties).flip listed
  cases found : (placeValues 0 properties).1.find? (fun q => q.name == p.name) with
  | none =>
    have other := List.find?_eq_none.1 found q here
    simp [holds.name] at other
  | some first =>
    have inPlace := isTexture_of_mem_placeValues (List.mem_of_find?_eq_some found)
    cases is : first.type with
    | value t =>
      refine ⟨first, t, ?_, is⟩
      show List.find? _ (_ ++ _) = _
      rw [List.find?_append, found, Option.some_or]
    | texture d =>
      rw [Parameter.isTexture, is] at inPlace
      cases inPlace

end Layout

namespace Material

variable {m : Material} {properties : List Property}

/-- What is packed agrees with what is declared: piece by piece the bytes that are written are
those that the field denotes, and what is written for no other field changes them. -/
structure FieldsAgree (m : Material) : Prop where
  writes : m.pack.staging = Bytes.layAll (List.replicate m.shader.bufferSize 0) m.pieces
  agree : List.Forall₂
    (fun d piece => d.Denotes piece.1 piece.2.length ∧
      Bytes.slice m.pack.staging piece.1 piece.2.length = piece.2)
    (Source.fields m.shader.layout.parameters) m.pieces

theorem fieldsAgree (fits : Layout.Fits properties)
    (layout : m.shader.layout = Layout.ofProperties properties) (same : SameWidths properties)
    (valid : m.Valid) : m.FieldsAgree := by
  have regular := Layout.regular_of_fits fits
  rw [← layout] at regular
  have filled : ∀ q ∈ m.shader.layout.parameters,
      (m.parameterBytes q).length = q.size.toNat := by
    intro q mem
    obtain ⟨p, declared, holds⟩ := regular.mem mem
    refine length_parameterBytes holds fun value set inPlace => ?_
    obtain ⟨first, found, type⟩ := valid.typed p.name value set
    obtain ⟨p', declared', holds'⟩ := regular.mem (List.mem_of_find?_eq_some found)
    have name : p'.name = p.name := by rw [← holds'.name]; simpa using List.find?_some found
    rw [holds'.type] at type
    rw [← type]
    exact same p' declared' p declared (Property.isTexture_of_value type) inPlace name
  refine ⟨packed_eq_layAll m, ?_⟩
  rw [Source.fields, pieces, List.forall₂_map_left_iff, List.forall₂_map_right_iff,
    List.forall₂_same]
  intro q mem
  rw [filled q mem]
  exact ⟨FieldDeclaration.denotes_ofParameter (regular.aligned q mem) (regular.within q mem),
    slice_packed fits layout filled mem⟩

/-- Where what is packed agrees with what is declared, the bytes of a parameter fill its
place. -/
theorem FieldsAgree.filled (agree : m.FieldsAgree) {q : Parameter}
    (mem : q ∈ m.shader.layout.parameters) : (m.parameterBytes q).length = q.size.toNat := by
  have all := agree.agree
  rw [Source.fields, pieces, List.forall₂_map_left_iff, List.forall₂_map_right_iff,
    List.forall₂_same] at all
  have range := (all q mem).1.range
  rw [FieldDeclaration.range?_ofParameter] at range
  exact (Prod.mk.inj (Option.some.inj range)).2.symm

namespace Session

theorem step_setValue {s : Session} {name : String} {value : Value} {m' : Material}
    (set : s.material.setValue name value = .ok m') :
    (s.step (.setValue name value)).material = m' := by
  have ends : Attempt.Ends (change fun m => m.setValue name value) s.material s.host
      fun _ m _ => m = m' := by
    rw [ends_change, set]
  exact (s.ends_perform (.setValue name value)).1 ends

/-- Zero may be set for a value. -/
theorem setValue_zero {m : Material} {name : String} {q : Parameter} {t : ValueType}
    (found : m.shader.parameter? name = some q) (type : q.type = .value t) :
    m.setValue name (.zero t) =
      .ok { m with values := m.values.insert name (.zero t), dirty := true } := by
  have finite : (Value.zero t).isFinite = true := by cases t <;> rfl
  refine setValue_eq_ok.2 ⟨⟨q, found, ?_, ?_, finite⟩, rfl⟩
  · rw [Parameter.isTexture, type]
    rfl
  · rw [type, Value.type_zero]

/-- If packing agrees with the declaration once zero is set for a value, the value is as wide as
the first of its name. -/
theorem size_eq_first {shader : Shader} {properties : List Property}
    (layout : shader.layout = Layout.ofProperties properties)
    (agree : ∀ name object host ops,
      ((start name object shader host).run ops).material.FieldsAgree)
    {p : Property} (mem : p ∈ properties) (value : p.isTexture = false) {q : Parameter}
    {t : ValueType} (found : shader.parameter? p.name = some q) (type : q.type = .value t) :
    p.type.size = (PropertyType.value t).size := by
  have set := setValue_zero (m := (start "" 0 shader default).material) found type
  have agreed := agree "" 0 default [.setValue p.name (.zero t)]
  rw [run_cons] at agreed
  change ((start "" 0 shader default).step _).material.FieldsAgree at agreed
  rw [step_setValue set] at agreed
  obtain ⟨q', mem', holds⟩ := Layout.exists_parameter mem
  have filled := agreed.filled (q := q') (by show q' ∈ shader.layout.parameters; rwa [layout])
  cases is : p.type with
  | texture d => rw [Property.isTexture_of_texture is] at value; cases value
  | value own =>
    rw [parameterBytes_of_value holds is, OrderedMap.get?_insert_self, Option.getD_some,
      Value.length_bytes, Value.type_zero, ← PropertyType.toNat_size_value, holds.size,
      is] at filled
    exact (UInt32.toNat_inj.1 filled).symm

/-- **Where declaration and packing agree.** The sources of a shader whose layout fits declare
one field for each parameter, in order, that denotes its place. In every session of a material
of the shader the bytes that are packed for a parameter are those that its field denotes exactly
if values of one name have one width. -/
theorem fields_agree_iff_sameWidths {definition : Definition} {shared : Bool} {limit : UInt32}
    {shader : Shader} (made : Shader.ofDefinition definition shared limit = .ok shader)
    (fits : Layout.Fits definition.properties) :
    (∀ index kind models options, ∃ before after,
      Source.generate definition index kind shader.layout.parameters models options =
        before ++ Source.block (Source.fields shader.layout.parameters) ++ after) ∧
    List.Forall₂ (fun d q => d.field = q.fieldName ∧ d.Denotes q.offset.toNat q.size.toNat)
      (Source.fields shader.layout.parameters) shader.layout.parameters ∧
    ((∀ name object host ops,
      ((start name object shader host).run ops).material.FieldsAgree) ↔
        SameWidths definition.properties) := by
  have layout := Shader.layout_of_ofDefinition made
  refine ⟨fun _ _ _ _ => Source.generate_eq_append _ _ _ _ _ _, ?_, ?_, ?_⟩
  · rw [layout]
    exact Source.fields_declare fits
  · intro agree p mem p' mem' value value' name
    obtain ⟨q, t, found, type⟩ := Layout.parameter?_of_value mem value
    rw [← layout] at found
    rw [size_eq_first layout agree mem value found type,
      size_eq_first layout agree mem' value' (name ▸ found) type]
  · intro same name object host ops
    have sound := run_sound (start_sound name object shader host) ops
    rw [← sound.shader] at layout
    exact fieldsAgree fits layout same sound.valid

theorem metal_fields_agree :
    Shader.ofDefinition metal false 65536 =
      .ok ⟨metal, Layout.ofProperties metal.properties, false⟩ ∧
    Layout.Fits metal.properties ∧
    (Source.fields (Layout.ofProperties metal.properties).parameters).map FieldDeclaration.text =
      ["    float Roughness : packoffset(c0.x);\n", "    float4 Tint : packoffset(c1.x);\n",
        "    bool Wet : packoffset(c2.x);\n", "    uint Sky_Index : packoffset(c2.y);\n"] ∧
    wetMetal.material.FieldsAgree :=
  have made : Shader.ofDefinition metal false 65536 =
      .ok ⟨metal, Layout.ofProperties metal.properties, false⟩ := rfl
  have fields := fields_agree_iff_sameWidths made (by decide)
  ⟨made, by decide, by decide +kernel, fields.2.2.2 (by decide) _ _ _ _⟩

/-- A text that declares one name in two lists, once for a vector and once for a number. -/
def paintText : String :=
  "Shader \"Paint\" \x7b\nProperties \x7b\n//# Vector4 A\n\x7d\n" ++
    "Properties \x7b\n//# Float A\n\x7d\n" ++
    "Pass \x7b HLSLPROGRAM\n#pragma vertex V\n#pragma fragment P\nENDHLSL \x7d\n\x7d"

/-- What the text declares. -/
def paint : Definition :=
  ⟨"Paint", .forward, [.plain "A" (.value .vector4), .plain "A" (.value .float)],
    [⟨"Pass0", .forward, "V", "P", ""⟩], none⟩

/-- A material of this shader that sets the vector. -/
def painted : Session :=
  (start "Paint" 0 ⟨paint, Layout.ofProperties paint.properties, false⟩
    (.new (.stub [] []) .empty)).run
    [.setValue "A" (.vector4 .zero .zero .zero ⟨1084227584⟩)]

/-- The vector is also written where the number is declared, over four times its bytes. -/
theorem painted_disagrees :
    Definition.parse paintText = .ok paint ∧
    Shader.ofDefinition paint false 65536 =
      .ok ⟨paint, Layout.ofProperties paint.properties, false⟩ ∧
    Layout.Fits paint.properties ∧
    (Source.fields (Layout.ofProperties paint.properties).parameters).map FieldDeclaration.text =
      ["    float4 A : packoffset(c0.x);\n", "    float A : packoffset(c1.x);\n"] ∧
    painted.material.pack.staging =
      List.replicate 14 0 ++ [160, 64] ++ List.replicate 14 0 ++ [160, 64] ++
        List.replicate 224 0 ∧
    ¬ painted.material.FieldsAgree := by
  refine ⟨ok_of_toOption (by decide +kernel), rfl, by decide, by decide +kernel,
    by decide +kernel, fun agree => ?_⟩
  have filled := agree.filled (q := ⟨"A", 1, 16, .value (.float .zero)⟩) (by decide +kernel)
  revert filled
  decide +kernel

end Session

end Material

end SurfaceShading
