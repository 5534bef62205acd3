/-
  A library holds what its sources declare. What a name declares depends on the registered
  texts and the shader files alone (`Library.Declared`), and it is one definition
  (`Declared.unique`). Every shader of a library is the one that its name declares, and the
  registered models are those that its shaders declare (`Faithful`); so if no two of them
  declare one number for different models, the shaders that were read determine the models,
  in whatever order they were read (`Faithful.models_eq`).
-/
import SurfaceShading.Proofs.Library.Register

namespace SurfaceShading

theorem Definition.appendLighting_unique {d : Definition} {shared : String}
    {source source' : Except SourceError String} {definition definition' : Definition}
    (agree : ∀ text text', source = .ok text → source' = .ok text' → text = text')
    (is : (d.appendLighting shared source).result = .ok definition)
    (is' : (d.appendLighting shared source').result = .ok definition') :
    definition = definition' := by
  cases source with
  | error e => cases is
  | ok text =>
    cases source' with
    | error e => cases is'
    | ok text' =>
      obtain rfl := agree text text' rfl rfl
      exact Except.ok.inj (is.symm.trans is')

/-- A text declares one definition, as long as the shared shader does not change. -/
theorem Definition.parseComplete_unique {text shared : String}
    {source source' : Except SourceError String} {definition definition' : Definition}
    (agree : ∀ text text', source = .ok text → source' = .ok text' → text = text')
    (is : (parseComplete text shared source).result = .ok definition)
    (is' : (parseComplete text shared source').result = .ok definition') :
    definition = definition' := by
  unfold parseComplete at is is'
  dsimp only at is is'
  cases read : (Grammar.read text.toList).result with
  | error e => rw [read] at is; cases is
  | ok d =>
    rw [read] at is is'
    dsimp only at is is'
    unfold complete at is is'
    split at is
    · next deferred =>
      rw [if_pos deferred] at is'
      split at is
      · next one =>
        rw [if_pos one] at is'
        exact appendLighting_unique agree is is'
      · cases is
    · next plain =>
      rw [if_neg plain] at is'
      exact Except.ok.inj (is.symm.trans is')

/-- A shader that is made of a definition is of this definition. -/
theorem Shader.of_made {definition : Definition} {shared : Bool} {limit : UInt32}
    {shader : Shader} (made : Shader.ofDefinition definition shared limit = .ok shader) :
    shader.definition = definition ∧ shader.shared = shared := by
  rw [Shader.eq_of_ofDefinition made]
  exact ⟨rfl, rfl⟩

namespace ModelRegistry

variable {r : ModelRegistry}

theorem get?_adding_of_some {model? : Option ShadingModel} {id : UInt32} {known : ShadingModel}
    (is : r.get? id = some known) : (r.adding model?).get? id = some known := by
  unfold adding
  cases model? with
  | none => exact is
  | some model =>
    dsimp only
    split
    · exact is
    · next new =>
      have ne : id ≠ model.id := fun eq => by rw [← eq, is] at new; cases new
      exact (OrderedMap.get?_insert_of_ne _ ne _).trans is

theorem get?_adding_self (r : ModelRegistry) (model : ShadingModel) :
    ∃ known, (r.adding (some model)).get? model.id = some known := by
  cases is : r.get? model.id with
  | some known => exact ⟨known, get?_adding_of_some is⟩
  | none =>
    refine ⟨model, ?_⟩
    unfold adding
    dsimp only
    rw [is]
    exact OrderedMap.get?_insert_self _ _ _

/-- A model is registered after another was added if it was before or is that other. -/
theorem get?_adding_cases {model? : Option ShadingModel} {id : UInt32} {found : ShadingModel}
    (is : (r.adding model?).get? id = some found) :
    r.get? id = some found ∨ (model? = some found ∧ found.id = id) := by
  unfold adding at is
  cases model? with
  | none => exact .inl is
  | some model =>
    dsimp only at is
    split at is
    · exact .inl is
    · unfold ModelRegistry.get? at is
      rw [OrderedMap.get?_insert] at is
      split at is
      · next same => cases is; exact .inr ⟨rfl, same.symm⟩
      · exact .inl is

end ModelRegistry

namespace Library

/-- What the registered texts and the shader files of a disk say that a name declares. -/
def Declared (l : Library) (disk : Disk) (name : String) (definition : Definition) : Prop :=
  ∃ disk', disk.SameShaderFiles disk' ∧ l.Declares disk' name definition

theorem Declared.unique {l : Library} {disk : Disk} {name : String}
    {definition definition' : Definition} (declared : l.Declared disk name definition)
    (declared' : l.Declared disk name definition') : definition = definition' := by
  obtain ⟨disk₁, same₁, text₁, read₁, parsed₁⟩ := declared
  obtain ⟨disk₂, same₂, text₂, read₂, parsed₂⟩ := declared'
  have same := same₁.symm.trans same₂
  obtain rfl := ShaderSources.read_unique same read₁ read₂
  exact Definition.parseComplete_unique
    (fun _ _ => ShaderSources.read_unique same) parsed₁ parsed₂

/-- Beside the library and the disk that all began with: nothing but the declared shaders was
read and no other models than theirs were registered. -/
structure Faithful (base : Library) (disk : Disk) (l : Library) (h : Host) : Prop where
  config : l.config = base.config
  sources : l.sources = base.sources
  files : disk.SameShaderFiles h.disk
  declared : ∀ name e, l.shaders.get? name = some e → ∃ definition,
    base.Declared disk name definition ∧ Shader.ofDefinition definition
      (name == base.config.sharedShader) base.config.bufferLimit = .ok e.object.shader
  models : ∀ id model, l.registry.get? id = some model → ∃ name e,
    l.shaders.get? name = some e ∧ e.object.shader.definition.model = some model ∧ model.id = id
  registered : ∀ name e model, l.shaders.get? name = some e →
    e.object.shader.definition.model = some model → ∃ known, l.registry.get? model.id = some known

namespace Faithful

variable {base l l' : Library} {disk : Disk} {h h' : Host}

theorem ofNothing (noShaders : ∀ name, base.shaders.get? name = none)
    (noModels : ∀ id, base.registry.get? id = none) : Faithful base h.disk base h where
  config := rfl
  sources := rfl
  files := .refl _
  declared name e is := by rw [noShaders] at is; cases is
  models id model is := by rw [noModels] at is; cases is
  registered name e model is := by rw [noShaders] at is; cases is

/-- Shaders may change as long as each stays of one declaration. -/
theorem withShaders (faithful : Faithful base disk l h) (config : l'.config = l.config)
    (sources : l'.sources = l.sources) (entries : l'.registry.entries = l.registry.entries)
    (files : h.disk.SameShaderFiles h'.disk)
    (same : ∀ name, (l'.shaders.get? name).map (fun e => e.object.shader) =
      (l.shaders.get? name).map fun e => e.object.shader) : Faithful base disk l' h' := by
  have before {name : String} {e' : ShaderEntry} (there' : l'.shaders.get? name = some e') :
      ∃ e, l.shaders.get? name = some e ∧ e.object.shader = e'.object.shader := by
    have eq := same name
    rw [there', Option.map_some] at eq
    exact Option.map_eq_some_iff.1 eq.symm
  refine ⟨config.trans faithful.config, sources.trans faithful.sources,
    faithful.files.trans files, fun name e' there' => ?_, fun id model is => ?_,
    fun name e' model there' is => ?_⟩
  · obtain ⟨e, there, eq⟩ := before there'
    rw [← eq]
    exact faithful.declared name e there
  · unfold ModelRegistry.get? at is
    rw [entries] at is
    obtain ⟨name, e, there, declares, id⟩ := faithful.models id model is
    have eq := same name
    rw [there, Option.map_some] at eq
    obtain ⟨e', there', eq⟩ := Option.map_eq_some_iff.1 eq
    exact ⟨name, e', there', by rw [eq]; exact declares, id⟩
  · obtain ⟨e, there, eq⟩ := before there'
    rw [← eq] at is
    unfold ModelRegistry.get?
    rw [entries]
    exact faithful.registered name e model there is

theorem map_shader_replacing {name : String} {e e' : ShaderEntry}
    (there : l.shaders.get? name = some e) (same : e'.object.shader = e.object.shader)
    (other : String) : ((l.replacing name e').shaders.get? other).map (fun e => e.object.shader) =
      (l.shaders.get? other).map fun e => e.object.shader := by
  unfold replacing
  rw [OrderedMap.get?_insert]
  split
  · next eq => rw [eq, there, Option.map_some, Option.map_some, same]
  · rfl

theorem adding (faithful : Faithful base disk l h) {name : String} {definition : Definition}
    {shader : Shader} (unknown : l.shaders.get? name = none)
    (declares : l.Declares h.disk name definition)
    (made : Shader.ofDefinition definition (name == l.config.sharedShader)
      l.config.bufferLimit = .ok shader) :
    Faithful base disk (l.adding name definition shader) h := by
  have self : (l.adding name definition shader).shaders.get? name =
      some ⟨.new l.nextShader shader, false⟩ := OrderedMap.get?_insert_self _ _ _
  have others {other : String} (ne : other ≠ name) :
      (l.adding name definition shader).shaders.get? other = l.shaders.get? other :=
    OrderedMap.get?_insert_of_ne _ ne _
  have known {other : String} {e : ShaderEntry} (there : l.shaders.get? other = some e) :
      other ≠ name := fun eq => by rw [eq, unknown] at there; cases there
  have model : shader.definition = definition := (Shader.of_made made).1
  refine ⟨faithful.config, faithful.sources, faithful.files, ?_, ?_, ?_⟩
  · intro other e there
    by_cases eq : other = name
    · subst eq
      rw [self] at there
      cases there
      refine ⟨definition, ⟨h.disk, faithful.files, ?_⟩, ?_⟩
      · unfold Declares at declares ⊢
        rwa [faithful.sources, faithful.config] at declares
      · rwa [faithful.config] at made
    · rw [others eq] at there
      exact faithful.declared other e there
  · intro id found is
    rcases ModelRegistry.get?_adding_cases is with old | ⟨new, rfl⟩
    · obtain ⟨other, e, there, rest⟩ := faithful.models id found old
      exact ⟨other, e, (others (known there)).trans there, rest⟩
    · exact ⟨name, _, self, by rw [← new, ← model]; rfl, rfl⟩
  · intro other e found there is
    by_cases eq : other = name
    · subst eq
      rw [self] at there
      cases there
      have declared : definition.model = some found := by rw [← model]; exact is
      show ∃ known, (l.registry.adding definition.model).get? found.id = some known
      rw [declared]
      exact ModelRegistry.get?_adding_self l.registry found
    · rw [others eq] at there
      obtain ⟨model, is⟩ := faithful.registered other e found there is
      exact ⟨model, ModelRegistry.get?_adding_of_some is⟩

/-- Every move keeps a library faithful to what it began with. -/
theorem move {l l' : Library} {h h' : Host} (move : Move l h l' h')
    (faithful : Faithful base disk l h) : Faithful base disk l' h' := by
  cases move with
  | world builds => exact faithful.withShaders rfl rfl rfl builds.files fun _ => rfl
  | turn _ => exact faithful.withShaders rfl rfl rfl (.refl _) fun _ => rfl
  | add unknown declares made => exact faithful.adding unknown declares made
  | queue _ _ => exact faithful.withShaders rfl rfl rfl (.refl _) fun _ => rfl
  | rework there reworked =>
    exact faithful.withShaders rfl rfl rfl reworked.world.files
      (map_shader_replacing there reworked.shader)
  | built there _ _ _ =>
    exact faithful.withShaders rfl rfl rfl (.refl _) (map_shader_replacing there rfl)
  | finish _ => exact faithful.withShaders rfl rfl rfl (.refl _) fun _ => rfl

/-- Two libraries hold the same shader under a name, if both hold one. -/
theorem shader_eq (faithful : Faithful base disk l h) (faithful' : Faithful base disk l' h')
    {name : String} {e e' : ShaderEntry} (there : l.shaders.get? name = some e)
    (there' : l'.shaders.get? name = some e') : e.object.shader = e'.object.shader := by
  obtain ⟨definition, declared, made⟩ := faithful.declared name e there
  obtain ⟨definition', declared', made'⟩ := faithful'.declared name e' there'
  obtain rfl := declared.unique declared'
  exact Except.ok.inj (made.symm.trans made')

end Faithful

/-- No two of some shaders declare one number for different models. -/
def NoConflict (base : Library) (disk : Disk) (names : String → Prop) : Prop :=
  ∀ {name name' definition definition' model model'}, names name → names name' →
    base.Declared disk name definition → base.Declared disk name' definition' →
    definition.model = some model → definition'.model = some model' →
    model.id = model'.id → model = model'

namespace Faithful

variable {base l l' : Library} {disk : Disk} {h h' : Host}

theorem get?_of_get? (faithful : Faithful base disk l h) (faithful' : Faithful base disk l' h')
    (known : ∀ name, l.Knows name ↔ l'.Knows name) (agree : NoConflict base disk l.Knows)
    {id : UInt32} {model : ShadingModel} (is : l.registry.get? id = some model) :
    l'.registry.get? id = some model := by
  obtain ⟨name, e, there, declares, rfl⟩ := faithful.models id model is
  obtain ⟨e', there'⟩ := (known name).1 ⟨e, there⟩
  have declares' : e'.object.shader.definition.model = some model := by
    rw [← faithful.shader_eq faithful' there there']
    exact declares
  obtain ⟨model', is'⟩ := faithful'.registered name e' model there' declares'
  obtain ⟨name'', e'', there'', declares'', same⟩ := faithful'.models _ _ is'
  obtain ⟨definition, declared, made⟩ := faithful'.declared name e' there'
  obtain ⟨definition'', declared'', made''⟩ := faithful'.declared name'' e'' there''
  rw [(Shader.of_made made).1] at declares'
  rw [(Shader.of_made made'').1] at declares''
  obtain rfl := agree ((known name).2 ⟨e', there'⟩) ((known name'').2 ⟨e'', there''⟩) declared
    declared'' declares' declares'' same.symm
  exact is'

/-- The shaders that were read determine the models, if no two of them are in conflict. -/
theorem models_eq (faithful : Faithful base disk l h) (faithful' : Faithful base disk l' h')
    (sorted : l.registry.entries.Sorted) (sorted' : l'.registry.entries.Sorted)
    (known : ∀ name, l.Knows name ↔ l'.Knows name) (agree : NoConflict base disk l.Knows) :
    l.registry.models = l'.registry.models := by
  have agree' : NoConflict base disk l'.Knows :=
    fun is is' => agree ((known _).2 is) ((known _).2 is')
  have entries : l.registry.entries = l'.registry.entries :=
    OrderedMap.Sorted.ext sorted sorted' fun id => Option.ext fun model =>
      ⟨faithful.get?_of_get? faithful' known agree,
        faithful'.get?_of_get? faithful (fun name => (known name).symm) agree'⟩
  unfold ModelRegistry.models
  rw [entries]

end Faithful

end Library

end SurfaceShading
