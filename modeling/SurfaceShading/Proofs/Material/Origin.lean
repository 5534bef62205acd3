/-
  What a material stays through all work. It keeps its name and the shader object that it was
  made for (`Material.SameOrigin`), and short of a change from outside also what was set and the
  buffer that it got (`Material.Becomes`). A new material that takes the settings of a file keeps
  the first of these.
-/
import SurfaceShading.Proofs.Material.Ownership

namespace SurfaceShading

namespace Material

variable {m m' : Material} {h : Host}

/-- A material of the same name, made for the same shader object. -/
structure SameOrigin (m m' : Material) : Prop where
  name : m'.name = m.name
  object : m'.object = m.object
  shader : m'.shader = m.shader

/-- The same material later on: what was set is as it was, and a buffer stays what it is. -/
structure Becomes (m m' : Material) : Prop extends SameOrigin m m' where
  values : m'.values = m.values
  texturePaths : m'.texturePaths = m.texturePaths
  buffer : ∀ buffer, m.buffer = some buffer → m'.buffer = some buffer

instance : Std.Refl SameOrigin := ⟨fun _ => ⟨rfl, rfl, rfl⟩⟩

instance : Trans SameOrigin SameOrigin SameOrigin :=
  ⟨fun first second => ⟨second.name.trans first.name, second.object.trans first.object,
    second.shader.trans first.shader⟩⟩

theorem SameOrigin.trans {m'' : Material} (first : SameOrigin m m') (second : SameOrigin m' m'') :
    SameOrigin m m'' := Trans.trans first second

theorem Becomes.refl (m : Material) : Becomes m m := ⟨⟨rfl, rfl, rfl⟩, rfl, rfl, fun _ => id⟩

theorem Becomes.trans {m'' : Material} (first : Becomes m m') (second : Becomes m' m'') :
    Becomes m m'' where
  toSameOrigin := first.toSameOrigin.trans second.toSameOrigin
  values := second.values.trans first.values
  texturePaths := second.texturePaths.trans first.texturePaths
  buffer b is := second.buffer b (first.buffer b is)

/-! ## Settings -/

theorem setValue_origin {name : String} {value : Value} (set : m.setValue name value = .ok m') :
    SameOrigin m m' := by
  rw [eq_of_setValue set]
  exact ⟨rfl, rfl, rfl⟩

theorem setTexturePath_origin {name path : String} (set : m.setTexturePath name path = .ok m') :
    SameOrigin m m' := by
  rw [eq_of_setTexturePath set]
  exact ⟨rfl, rfl, rfl⟩

/-! ## Buffers and textures -/

theorem BufferMade.becomes {h' : Host} {r : Except Error Unit} (made : BufferMade m h r m' h') :
    Becomes m m' := by
  cases made with
  | unneeded _ => exact .refl m
  | refused _ _ _ => exact .refl m
  | made missing _ _ _ _ _ =>
    refine ⟨⟨rfl, rfl, rfl⟩, rfl, rfl, fun buffer is => ?_⟩
    rw [missing] at is
    cases is

theorem createBuffer_becomes (m : Material) (h : Host) :
    Attempt.Ends createBuffer m h fun _ m' _ => Becomes m m' :=
  (createBuffer_ends m h).mono fun _ _ _ made => made.becomes

theorem update_becomes (m : Material) (h : Host) :
    Attempt.Ends update m h fun _ m' _ => Becomes m m' := by
  have packs {m₁ : Material} (becomes : Becomes m m₁) :
      Becomes m { m₁ with staging := m₁.packed, dirty := false } :=
    becomes.trans ⟨⟨rfl, rfl, rfl⟩, rfl, rfl, fun _ => id⟩
  exact update_rule (createBuffer_becomes m h) (fun _ _ _ => id)
    (fun _ _ becomes _ => packs becomes)
    fun _ _ _ becomes _ => .of_forall fun _ _ => packs becomes

theorem bind_becomes (slot : UInt32) (m : Material) (h : Host) :
    Attempt.Ends (bind slot) m h fun _ m' _ => Becomes m m' :=
  bind_rule (Q := fun _ m₁ _ => Becomes m m₁) (fun _ => update_becomes m h)
    (fun _ _ => .refl m) (fun _ _ _ => id) fun _ _ _ becomes _ => becomes

theorem loadTextures_becomes (m : Material) (table : TextureTable) (h : Host) :
    Attempt.Ends loadTextures (m, table) h fun _ s' _ => Becomes m s'.1 := by
  refine ends_loadTextures.2 ((resolve_same _ m table h).mono ?_)
  rintro _ ⟨_, table₁⟩ h₁ ⟨indices, rfl⟩
  refine (update_becomes _ h₁).mono fun _ _ _ becomes => Becomes.trans ?_ becomes
  exact ⟨⟨rfl, rfl, rfl⟩, rfl, rfl, fun _ => id⟩

/-- A material that takes the settings of a file and gets its buffer. -/
theorem applyFile_createBuffer_origin (file : MaterialFile) (m : Material) (h : Host) :
    Attempt.Ends (do
      Material.applyFile file
      Material.createBuffer : Attempt Material Unit) m h fun _ m' _ => SameOrigin m m' := by
  rw [Attempt.ends_bind, Attempt.ends_liftWork]
  refine (applyFile_ends setValue_origin setTexturePath_origin file m h).mono fun _ m₁ h₁ same => ?_
  exact (createBuffer_becomes m₁ h₁).mono fun _ _ _ becomes => same.trans becomes.toSameOrigin

end Material

end SurfaceShading
