/-
  Rules for the work on a material, one for each piece of it. A setter accepts exactly what the
  shader takes (`Material.setValue_eq_ok`, `Material.setTexturePath_eq_ok`). Of work in the world
  what is known of its parts, where it uses them, is enough for the whole. The proofs about
  materials go by these rules and do not open the work itself, so that a change of it concerns its
  rule first.
-/
import SurfaceShading.Material.Basic
import SurfaceShading.Proofs.Outcome

namespace SurfaceShading

/-- The first parameter of the name is no texture and has the type of the value, which is
finite. -/
def Shader.TakesValue (shader : Shader) (name : String) (value : Value) : Prop :=
  ∃ q, shader.parameter? name = some q ∧ q.isTexture = false ∧ q.type = .value value.type ∧
    value.isFinite = true

/-- The first parameter of the name is a texture. -/
def Shader.TakesPath (shader : Shader) (name : String) : Prop :=
  ∃ q, shader.parameter? name = some q ∧ q.isTexture = true

namespace Material

variable {m m' : Material} {table : TextureTable} {h : Host}
  {mid post : Except Error Unit → Material → Host → Prop}

/-! ## Setters -/

theorem requireParameter_eq_ok {name : String} {q : Parameter} :
    m.requireParameter name = .ok q ↔ m.shader.parameter? name = some q := by
  unfold requireParameter
  split <;> simp [*]

/-- A value is set exactly if it is taken. -/
theorem setValue_eq_ok {name : String} {value : Value} :
    m.setValue name value = .ok m' ↔ m.shader.TakesValue name value ∧
      m' = { m with values := m.values.insert name value, dirty := true } := by
  constructor
  · intro set
    obtain ⟨q, found, made⟩ := except_bind_eq_ok.1 set
    split at made
    · cases made
    · next typed =>
      split at made
      · cases made
      · next finite =>
        cases made
        have type : q.type = .value value.type := Decidable.not_not.1 typed
        exact ⟨⟨q, requireParameter_eq_ok.1 found, by rw [Parameter.isTexture, type]; rfl, type,
          by simpa using finite⟩, rfl⟩
  · rintro ⟨⟨q, found, _, typed, finite⟩, rfl⟩
    refine except_bind_eq_ok.2 ⟨q, requireParameter_eq_ok.2 found, ?_⟩
    rw [if_neg (not_not_intro typed), finite]
    rfl

/-- A path is set exactly if it is taken. -/
theorem setTexturePath_eq_ok {name path : String} :
    m.setTexturePath name path = .ok m' ↔ m.shader.TakesPath name ∧
      m' = { m with
        texturePaths := m.texturePaths.insert name path
        textureIndices := m.textureIndices.erase name
        pending := true
        dirty := true } := by
  constructor
  · intro set
    obtain ⟨q, found, made⟩ := except_bind_eq_ok.1 set
    split at made
    · next texture =>
      cases made
      exact ⟨⟨q, requireParameter_eq_ok.1 found, texture⟩, rfl⟩
    · cases made
  · rintro ⟨⟨q, found, texture⟩, rfl⟩
    refine except_bind_eq_ok.2 ⟨q, requireParameter_eq_ok.2 found, ?_⟩
    rw [if_pos texture]

/-- A value that is set is all that is changed. -/
theorem eq_of_setValue {name : String} {value : Value} (set : m.setValue name value = .ok m') :
    m' = { m with values := m.values.insert name value, dirty := true } :=
  (setValue_eq_ok.1 set).2

/-- A path that is set has no slot yet. -/
theorem eq_of_setTexturePath {name path : String} (set : m.setTexturePath name path = .ok m') :
    m' = { m with
      texturePaths := m.texturePaths.insert name path
      textureIndices := m.textureIndices.erase name
      pending := true
      dirty := true } :=
  (setTexturePath_eq_ok.1 set).2

/-! ## The constant buffer -/

/-- Making the buffer: the device is asked if there is none and bytes are to be kept in it. -/
theorem createBuffer_rule
    (unneeded : (m.shader.bufferSize ≠ 0 → m.buffer ≠ none) → post (.ok ()) m h)
    (asked : m.buffer = none → m.shader.bufferSize ≠ 0 →
      HostM.Ends (Device.createBuffer (.constants (m.name ++ "_constants") m.shader.bufferSize)) h
        fun
        | .ok buffer, h' => post (.ok ()) { m with buffer := some buffer } h'
        | .error e, h' => post (.error (.device e)) m h') :
    Attempt.Ends createBuffer m h post := by
  unfold createBuffer
  rw [Attempt.ends_bind, Attempt.ends_get, Attempt.after_ok]
  split
  · next missing =>
    obtain ⟨none, bytes⟩ : m.buffer = none ∧ m.shader.bufferSize ≠ 0 := by simpa using missing
    rw [Attempt.ends_bind, Attempt.ends_ofDevice]
    refine (asked none bytes).mono fun r h' ended => ?_
    cases r with
    | error e => exact ended
    | ok buffer => exact ended
  · next there =>
    refine unneeded fun bytes none => there ?_
    simp [bytes, none]

/-- An update: the buffer is made, and what the material packs is written to it, if there is
one. -/
theorem update_rule (made : Attempt.Ends createBuffer m h mid)
    (refused : ∀ e m₁ h₁, mid (.error e) m₁ h₁ → post (.error e) m₁ h₁)
    (bare : ∀ m₁ h₁, mid (.ok ()) m₁ h₁ → m₁.buffer = none →
      post (.ok ()) { m₁ with staging := m₁.packed, dirty := false } h₁)
    (written : ∀ m₁ h₁ buffer, mid (.ok ()) m₁ h₁ → m₁.buffer = some buffer →
      HostM.Ends (Device.writeBuffer buffer 0 m₁.packed) h₁ fun _ h' =>
        post (.ok ()) { m₁ with staging := m₁.packed, dirty := false } h') :
    Attempt.Ends update m h post := by
  unfold update
  refine made.bind ?_ refused
  intro _ m₁ h₁ held
  simp only [Attempt.ends_bind, Attempt.ends_modify, Attempt.ends_get, Attempt.after_ok]
  split
  · next buffer has =>
    simp only [Attempt.ends_bind, Attempt.ends_liftHost]
    exact written m₁ h₁ buffer held has
  · next missing => exact bare m₁ h₁ held missing

/-! ## Textures -/

/-- Resolving, one parameter after the other: `P` is about those that are still to be resolved. -/
theorem resolve_rule
    {P : List (String × String × TextureDimension) → Material → TextureTable → Host → Prop}
    (each : ∀ {name path dimension rest m table h}, P ((name, path, dimension) :: rest) m table h →
      Work.Ends (TextureTable.acquire path dimension) table h fun index table' h' =>
        P rest { m with textureIndices := m.textureIndices.insert name index } table' h')
    {parameters : List (String × String × TextureDimension)} (start : P parameters m table h) :
    Work.Ends (resolve parameters) (m, table) h fun _ s' h' => P [] s'.1 s'.2 h' := by
  induction parameters generalizing m table h with
  | nil => exact start
  | cons parameter rest ih =>
    unfold resolve
    rw [Work.ends_bind, Work.ends_focus]
    refine (each start).mono fun index table₁ h₁ next => ?_
    rw [Work.ends_bind, Work.ends_modify]
    exact ih next

/-- Loading textures is resolving them and then an update. -/
theorem ends_loadTextures {post : Except Error Unit → Material × TextureTable → Host → Prop} :
    Attempt.Ends loadTextures (m, table) h post ↔
      Work.Ends (resolve m.unresolved) (m, table) h fun _ s₁ h₁ =>
        Attempt.Ends update { s₁.1 with pending := false } h₁ fun r m' h' =>
          post r (m', s₁.2) h' := by
  unfold loadTextures
  rw [Attempt.ends_bind, Attempt.ends_get, Attempt.after_ok, Attempt.ends_bind,
    Attempt.ends_liftWork]
  simp only [Attempt.after_ok, Attempt.ends_bind, Attempt.ends_modify, Attempt.ends_focus]

end Material

end SurfaceShading
