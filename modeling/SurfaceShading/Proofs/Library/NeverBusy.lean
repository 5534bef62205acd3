/-
  No request finds the registry busy. Every piece of work for a library that finds its registry
  idle, or open for registration where shaders are taken in, leaves it so however it ends, and
  none of its errors says that the registry is busy (`Attempt.Calm`). This follows step by step
  from the definition of the work; the steps that open the registry close it again on each of
  their ways out.
-/
import SurfaceShading.Proofs.Library.Register
import SurfaceShading.Proofs.Session

namespace SurfaceShading

/-- The answer is not that the registry is busy. -/
def Unbusy {α : Type} (r : Except Error α) : Prop := ∀ conflict, r ≠ .error (.registryBusy conflict)

namespace Unbusy

variable {α β : Type}

theorem ok {a : α} : Unbusy (.ok a) := nofun

theorem map {r : Except Error α} (unbusy : Unbusy r) (f : α → β) : Unbusy (r.map f) := by
  intro conflict is
  cases r with
  | ok a => cases is
  | error e => exact unbusy conflict (congrArg _ (Except.error.inj is))

theorem ofDevice (r : Except DeviceError α) : Unbusy (r.mapError Error.device) := by
  cases r <;> exact nofun

end Unbusy

/-! ## Work that never answers so -/

variable {σ τ α β : Type}

/-- The work keeps what holds of the value. -/
def Work.Holds (I : σ → Prop) (w : Work σ α) : Prop :=
  ∀ s h, I s → Ends w s h fun _ s' _ => I s'

/-- The attempt keeps what holds of the value, and does not answer that the registry is busy. -/
def Attempt.Calm (I : σ → Prop) (x : Attempt σ α) : Prop :=
  ∀ s h, I s → Ends x s h fun r s' _ => I s' ∧ Unbusy r

/-- The attempt does not answer that the registry is busy. -/
abbrev Attempt.NeverBusy (x : Attempt σ α) : Prop := Calm (fun _ => True) x

/-- Work about which there is nothing to keep. -/
theorem Work.Holds.trivial (w : Work σ α) : Work.Holds (fun _ => True) w := fun _ _ _ => True.intro

namespace Attempt.Calm

variable {I : σ → Prop}

theorem pure {a : α} : Calm I (pure a) := fun _ _ holds => ⟨holds, .ok⟩

theorem throw {e : Error} (unbusy : ∀ conflict, e ≠ .registryBusy conflict) :
    Calm I (throw e : Attempt σ α) :=
  fun _ _ holds => ⟨holds, fun conflict is => unbusy conflict (Except.error.inj is)⟩

theorem modify {f : σ → σ} (keeps : ∀ s, I s → I (f s)) : Calm I (modify f : Attempt σ PUnit) :=
  fun s _ holds => ⟨keeps s holds, .ok⟩

theorem set {t : σ} (holds : I t) : Calm I (set t : Attempt σ PUnit) := fun _ _ _ => ⟨holds, .ok⟩

theorem ofExcept {r : Except Error α} (unbusy : Unbusy r) : Calm I (ofExcept r : Attempt σ α) :=
  fun _ _ holds => ⟨holds, unbusy⟩

theorem liftHost (m : HostM α) : Calm I (liftM m : Attempt σ α) := fun _ _ holds => ⟨holds, .ok⟩

theorem liftWork {w : Work σ α} (keeps : Work.Holds I w) : Calm I (liftM w : Attempt σ α) :=
  fun s h holds => (ends_liftWork w).2 ((keeps s h holds).mono fun _ _ _ held => ⟨held, .ok⟩)

/-- Work in the world that answers with a result. -/
theorem ofHost {m : HostM (Except Error α)} (unbusy : ∀ h, HostM.Ends m h fun r _ => Unbusy r) :
    Calm I (ExceptT.mk (liftM m) : Attempt σ α) := fun _ h holds => ⟨holds, unbusy h⟩

theorem ofDevice (m : HostM (Except DeviceError α)) : Calm I (ofDevice m : Attempt σ α) :=
  fun _ _ holds => (ends_ofDevice m).2 (.of_forall fun r _ => ⟨holds, .ofDevice r⟩)

theorem bind {x : Attempt σ α} {f : α → Attempt σ β} (first : Calm I x)
    (rest : ∀ a, Calm I (f a)) : Calm I (x >>= f) := fun s h holds =>
  (first s h holds).bind (fun a s' h' held => rest a s' h' held.1) fun _ _ _ ⟨held, unbusy⟩ =>
    ⟨held, fun conflict is => unbusy conflict (congrArg _ (Except.error.inj is))⟩

/-- What is read is known to hold. -/
theorem get {f : σ → Attempt σ β} (rest : ∀ s, I s → Calm I (f s)) : Calm I (get >>= f) :=
  fun s h holds => by
    rw [ends_bind, ends_get, after_ok]
    exact rest s holds s h holds

theorem getHost {f : Host → Attempt σ β} (rest : ∀ h, Calm I (f h)) :
    Calm I (getThe Host >>= f) := fun s h holds => by
  rw [ends_bind, ends_getHost, after_ok]
  exact rest h s h holds

/-- An attempt whose error is not passed on at once. -/
theorem caught {x : Attempt σ α} {f : Except Error α → Attempt σ β} (first : Calm I x)
    (rest : ∀ r, Unbusy r → Calm I (f r)) : Calm I (liftM x.run >>= f) := fun s h holds => by
  rw [ends_bind, ends_liftWork, Work.ends_run]
  exact (first s h holds).mono fun r s' h' ⟨held, unbusy⟩ => rest r unbusy s' h' held

/-- A step that is made on a condition, and what follows either way. -/
theorem onCondition {c : Prop} [Decidable c] {x : Attempt σ α} {y : Attempt σ β}
    (first : Calm I x) (rest : Calm I y) : Calm I (if c then x >>= fun _ => y else y) := by
  split
  · exact bind first fun _ => rest
  · exact rest

/-- An attempt on a part that the invariant says nothing of. -/
theorem focus {part : σ → τ} {replace : σ → τ → σ} {x : Attempt τ α}
    (calm : NeverBusy x) (keeps : ∀ s t, I s → I (replace s t)) :
    Calm I (focus part replace x) := fun s h holds =>
  (ends_focus part replace x).2 ((calm (part s) h True.intro).mono
    fun _ t _ ⟨_, unbusy⟩ => ⟨keeps s t holds, unbusy⟩)

end Attempt.Calm

open Attempt (Calm NeverBusy)

/-! ## The registry set free -/

namespace ModelRegistry

variable {r : ModelRegistry}

theorem endRegistration_idle (registering : r.state = .registering) :
    r.endRegistration.state = .idle := by
  rw [endRegistration, if_pos registering]

theorem finishRegeneration_idle (regenerating : r.state = .regenerating) :
    r.finishRegeneration.state = .idle := by
  rw [finishRegeneration, if_pos regenerating]

theorem abortRegeneration_idle (regenerating : r.state = .regenerating) :
    r.abortRegeneration.state = .idle := by
  rw [abortRegeneration, if_pos regenerating]

end ModelRegistry

/-! ## Passes -/

theorem Shader.ofDefinition_unbusy (definition : Definition) (shared : Bool) (limit : UInt32) :
    Unbusy (ofDefinition definition shared limit) := by
  unfold ofDefinition
  dsimp only
  split <;> exact nofun

theorem Shader.source_unbusy (s : Shader) (index : Nat) (models : List ShadingModel)
    (options : SourceOptions) : Unbusy (s.source index models options) := by
  unfold Shader.source Shader.requireKind
  cases s.passKind? index <;> exact nofun

namespace ShaderObject

theorem writeSource_unbusy (shader : Shader) (target : CompileTarget) (index : Nat)
    (source : String) (h : Host) :
    HostM.Ends (writeSource shader target index source) h fun r _ => Unbusy r := by
  unfold writeSource
  split
  · exact .ok
  · refine (HostM.ends_bind _ _).2 (.of_forall fun r _ => ?_)
    cases r <;> exact nofun

theorem compileStage_unbusy (shader : Shader) (target : CompileTarget) (index : Nat)
    (source entry : String) (stage : Stage) (h : Host) :
    HostM.Ends (compileStage shader target index source entry stage) h fun r _ => Unbusy r := by
  refine (HostM.ends_bind _ _).2 (.of_forall fun r _ => ?_)
  cases r <;> exact nofun

theorem compilePass_calm (index : Nat) (models : List ShadingModel) (target : CompileTarget) :
    NeverBusy (compilePass index models target) := by
  refine .get fun o _ => .bind (.ofExcept (o.shader.source_unbusy _ _ _)) fun source => ?_
  split
  · exact .throw nofun
  · exact .bind (.ofHost (writeSource_unbusy _ _ _ _)) fun _ =>
      .bind (.ofHost (compileStage_unbusy _ _ _ _ _ _)) fun _ =>
      .bind (.ofHost (compileStage_unbusy _ _ _ _ _ _)) fun _ => .modify fun _ _ => True.intro

theorem compilePasses_calm (models : List ShadingModel) (target : CompileTarget)
    (indices : List Nat) : NeverBusy (compilePasses models target indices) := by
  induction indices with
  | nil => exact .pure
  | cons index rest ih => exact .bind (compilePass_calm index models target) fun _ => ih

theorem createPipeline_calm (index : Nat) : NeverBusy (createPipeline index) := by
  refine .get fun o _ => .bind (.ofExcept ?_) fun kind => ?_
  · unfold Shader.requireKind
    split <;> exact nofun
  · dsimp only
    split
    · exact .throw nofun
    · exact .bind (.ofDevice _) fun _ => .bind (.modify fun _ _ => True.intro) fun _ => .pure

theorem createPipelinesOf_calm (indices : List Nat) :
    NeverBusy (createPipelinesOf indices) := by
  induction indices with
  | nil => exact .pure
  | cons index rest ih => exact .bind (createPipeline_calm index) fun _ => ih

theorem build_calm (models : List ShadingModel) (target : CompileTarget) :
    NeverBusy (build models target) :=
  .bind (.get fun _ _ => .bind (compilePasses_calm models target _) fun _ => .liftHost _) fun _ =>
    .get fun _ _ => createPipelinesOf_calm _

theorem rebuildPasses_calm (models : List ShadingModel) (target : CompileTarget)
    (indices : List Nat) : NeverBusy (rebuildPasses models target indices) := by
  induction indices with
  | nil => exact .pure
  | cons index rest ih =>
    exact .bind (compilePass_calm index models target) fun _ =>
      .bind (createPipeline_calm index) fun _ => .bind ih fun _ => .pure

theorem rebuildLighting_calm (models : List ShadingModel) (target : CompileTarget) :
    NeverBusy (rebuildLighting models target) :=
  .get fun _ _ => rebuildPasses_calm models target _

end ShaderObject

/-! ## Materials and textures -/

namespace Material

theorem createBuffer_calm : NeverBusy createBuffer := by
  refine .get fun m _ => ?_
  split
  · exact .bind (.ofDevice _) fun _ => .set True.intro
  · exact .pure

theorem update_calm : NeverBusy update := by
  refine .bind createBuffer_calm fun _ => .bind (.modify fun _ => id) fun _ => .get fun m _ => ?_
  split
  · exact .bind (.liftHost _) fun _ => .set True.intro
  · exact .set True.intro

theorem bind_calm (slot : UInt32) : NeverBusy (bind slot) := by
  refine .get fun m _ => .onCondition update_calm (.get fun m _ => ?_)
  split
  · exact .liftHost _
  · exact .pure

theorem loadTextures_calm : NeverBusy loadTextures :=
  .get fun _ _ => .bind (.liftWork (.trivial _)) fun _ => .bind (.modify fun _ => id) fun _ =>
    .focus update_calm fun _ _ => id

theorem save_unbusy (m : Material) (path : String) (h : Host) :
    HostM.Ends (m.save path) h fun r _ => Unbusy r := by
  unfold save MaterialFile.save
  rw [HostM.ends_bind, HostM.ends_get]
  split
  next disk r is =>
  refine (HostM.ends_bind _ _).2 ((HostM.ends_modify _).2 ?_)
  split at is <;> cases is <;> exact nofun

end Material

namespace TextureTable

theorem ensureFrom_calm (i : Nat) (slots : List DefaultSlot) :
    NeverBusy (ensureFrom i slots) := by
  induction slots generalizing i with
  | nil => exact .pure
  | cons slot rest ih =>
    refine .bind ?_ fun _ => ih (i + 1)
    unfold ensureDefault
    split
    · exact .bind (.ofDevice _) fun _ => .modify fun _ _ => True.intro
    · exact .pure

theorem ensureDefaults_calm : NeverBusy ensureDefaults :=
  .get fun table _ => ensureFrom_calm 0 table.defaults

end TextureTable

theorem MaterialFile.load_unbusy (disk : Disk) (path : String) : Unbusy (load disk path) := by
  unfold load
  split
  · exact nofun
  · split <;> exact nofun

theorem MaterialHeader.load_unbusy (disk : Disk) (path : String) : Unbusy (load disk path) := by
  unfold load
  split
  · exact nofun
  · split <;> exact nofun

namespace Library

variable {state : RegistryState}

/-- The registry of the library is in a state. -/
def InState (state : RegistryState) (l : Library) : Prop := l.registry.state = state

/-! ## Shaders -/

theorem onShader_calm {name : String} {none : α} {attempt : Attempt ShaderObject α}
    (calm : NeverBusy attempt) : Calm (InState state) (onShader name none attempt) := by
  intro l h is
  cases there : l.shaders.get? name with
  | none =>
    unfold onShader
    rw [Attempt.ends_mk, Work.ends_bind, Work.ends_get, there]
    exact ⟨is, .ok⟩
  | some e =>
    rw [ends_onShader there]
    exact (calm e.object h True.intro).mono fun _ _ _ ⟨_, unbusy⟩ => ⟨is, unbusy⟩

theorem markBuilt_calm (name : String) : Calm (InState state) (markBuilt name) := by
  refine .modify fun l is => ?_
  split <;> exact is

theorem readDefinition_calm (name : String) : Calm (InState state) (readDefinition name) := by
  refine .get fun l _ => .getHost fun h => ?_
  dsimp only
  split
  · next e _ => exact .throw (by cases e <;> exact nofun)
  · refine .bind (.liftHost _) fun _ => ?_
    split
    · exact .bind (.liftHost _) fun _ => .throw nofun
    · exact .pure

theorem registerModel_calm (model : ShadingModel) (isOpen : state ≠ .regenerating) :
    Calm (InState state) (registerModel model) := by
  rintro l h rfl
  refine (registerModel_ends model isOpen).mono ?_
  rintro _ _ _ ⟨rfl, rfl⟩
  exact ⟨ModelRegistry.adding_state _ _, .ok⟩

theorem addShader_calm (name : String) (definition : Definition) (isOpen : state ≠ .regenerating) :
    Calm (InState state) (addShader name definition) := by
  refine .get fun l _ => .onCondition (.liftHost _) (.bind (.liftHost _) fun _ =>
    .bind (.ofExcept (Shader.ofDefinition_unbusy _ _ _)) fun shader => ?_)
  have last : Calm (InState state) (do
      report (.shaderLoaded name definition.queue shader.passCount)
      modify fun l => { l with
        shaders := l.shaders.insert name ⟨.new l.nextShader shader, false⟩
        nextShader := l.nextShader + 1
        pending := l.pending ++ [name] } : Attempt Library Unit) :=
    .bind (.liftHost _) fun _ => .modify fun _ => id
  split
  · exact .bind (registerModel_calm _ isOpen) fun _ => last
  · exact last

theorem ensureShader_calm (name : String) (isOpen : state ≠ .regenerating) :
    Calm (InState state) (ensureShader name) := by
  refine .get fun l _ => ?_
  split
  · exact .bind (readDefinition_calm name) fun definition => addShader_calm name definition isOpen
  · exact .pure

theorem ensureShaders_calm (names : List String) (isOpen : state ≠ .regenerating) :
    Calm (InState state) (ensureShaders names) := by
  induction names with
  | nil => exact .pure
  | cons name rest ih =>
    exact .bind (ensureShader_calm name isOpen) fun _ => .bind ih fun _ => .pure

/-- A registration closes the registry that it opened. -/
theorem registerShaders_calm (names : List String) :
    Calm (InState .idle) (registerShaders names) := by
  intro l h idle
  have opens : l.registry.beginRegistration = .ok { l.registry with state := .registering } := by
    unfold ModelRegistry.beginRegistration
    rw [idle]
  simp only [registerShaders, onRegistry, Attempt.ends_bind, Attempt.ends_get, Attempt.after_ok,
    opens, Attempt.ends_modify, Attempt.ends_liftWork, Work.ends_run, Attempt.ends_ofExcept]
  have shaders : Calm (InState .registering) (ensureShaders names) :=
    ensureShaders_calm names (by decide)
  refine (shaders (l.turned .registering) h rfl).mono ?_
  rintro r l' h' ⟨registering, unbusy⟩
  exact ⟨ModelRegistry.endRegistration_idle registering, unbusy⟩

theorem registerAll_calm : Calm (InState .idle) registerAll :=
  .get fun _ _ => .getHost fun _ => registerShaders_calm _

theorem rebuildLighting_calm (models : List ShadingModel) (names : List String) :
    Calm (InState state) (rebuildLighting models names) := by
  induction names with
  | nil => exact .pure
  | cons name rest ih =>
    exact .get fun _ _ => .bind (onShader_calm (ShaderObject.rebuildLighting_calm _ _)) fun _ =>
      .bind ih fun _ => .pure

/-- A regeneration closes the registry and sets it free again. -/
theorem regenerateExcept_calm (skipped : List String) :
    Calm (InState .idle) (regenerateExcept skipped) := by
  intro l h idle
  have closes : l.registry.beginRegeneration = .ok { l.registry with state := .regenerating } := by
    unfold ModelRegistry.beginRegeneration
    rw [idle]
  simp only [regenerateExcept, onRegistry, Attempt.ends_bind, Attempt.ends_get, Attempt.after_ok,
    closes, Attempt.ends_modify, Attempt.ends_liftWork, Work.ends_run]
  have lighting (models : List ShadingModel) (names : List String) :
      Calm (InState .regenerating) (rebuildLighting models names) := rebuildLighting_calm models names
  refine (lighting _ _ (l.turned .regenerating) h rfl).mono ?_
  rintro r l' h' ⟨regenerating, unbusy⟩
  cases r with
  | ok count =>
    dsimp only
    rw [Attempt.ends_bind, Attempt.ends_modify, Attempt.after_ok]
    exact (Calm.onCondition (.liftHost _) .pure) _ _
      (ModelRegistry.finishRegeneration_idle regenerating)
  | error e =>
    exact ⟨ModelRegistry.abortRegeneration_idle regenerating, fun conflict is =>
      unbusy conflict (congrArg _ (Except.error.inj is))⟩

theorem buildShader_calm (name : String) : Calm (InState state) (buildShader name) :=
  .get fun _ _ => .bind (onShader_calm (ShaderObject.build_calm _ _)) fun _ => markBuilt_calm name

theorem buildAll_calm (names : List String) : Calm (InState state) (buildAll names) := by
  induction names with
  | nil => exact .pure
  | cons name rest ih =>
    refine .caught (buildShader_calm name) fun r unbusy => ?_
    cases r with
    | ok _ => exact ih
    | error e =>
      exact .bind (.modify fun _ => id) fun _ => .throw fun conflict is =>
        unbusy conflict (congrArg _ is)

theorem compilePending_calm : Calm (InState .idle) compilePending :=
  .get fun _ idle => .bind (.set idle) fun _ => .bind (buildAll_calm _) fun _ => .get fun _ _ =>
    .onCondition (regenerateExcept_calm _) .pure

theorem loadAll_calm : Calm (InState .idle) loadAll :=
  .bind registerAll_calm fun _ => .bind (.liftHost _) fun _ => compilePending_calm

theorem settle_calm (name : String) {built : Except Error Unit} (unbusy : Unbusy built) :
    Calm (InState .idle) (settle name built) := by
  refine .get fun _ _ => ?_
  have last : Calm (InState .idle) (Attempt.ofExcept built : Attempt Library Unit) :=
    .ofExcept unbusy
  split
  · refine .caught (regenerateExcept_calm [name]) fun r unbusy' => ?_
    cases built with
    | ok _ =>
      cases r with
      | ok _ => exact last
      | error e =>
        exact .bind (.throw fun conflict is => unbusy' conflict (congrArg _ is)) fun _ => last
    | error _ =>
      cases r with
      | ok _ => exact last
      | error e => exact .bind (.liftHost _) fun _ => last
  · exact last

theorem loadNew_calm (name : String) : Calm (InState .idle) (loadNew name) :=
  .bind (ensureShader_calm name nofun) fun _ => .bind (.modify fun _ => id) fun _ =>
    .caught (buildShader_calm name) fun _ unbusy => settle_calm name unbusy

theorem loadShader_calm (name : String) : Calm (InState .idle) (loadShader name) := by
  refine .get fun _ _ => ?_
  split
  · exact .bind (.liftHost _) fun _ => .pure
  · refine .bind (loadNew_calm name) fun _ => .get fun _ _ => ?_
    split
    · exact .pure
    · exact .throw nofun

/-! ## Materials of the library -/

theorem prepare_calm (m : Material) {attempt : Attempt Material Unit}
    (calm : NeverBusy attempt) : Calm (InState state) (prepare m attempt) :=
  fun _ h is => ⟨is, Unbusy.map (calm m h True.intro).2 _⟩

theorem prepareTextures_calm (m : Material) : Calm (InState state) (prepareTextures m) :=
  fun l h is => ⟨is, Unbusy.map (Material.loadTextures_calm (m, l.textures) h True.intro).2 _⟩

theorem ensureDefaultTextures_calm : Calm (InState state) ensureDefaultTextures :=
  .focus TextureTable.ensureDefaults_calm fun _ _ => id

theorem createMaterial_calm (name shader : String) :
    Calm (InState .idle) (createMaterial name shader) := by
  refine .get fun _ _ => ?_
  split
  · exact .pure
  · exact .bind (loadShader_calm shader) fun _ => .bind (prepare_calm _ Material.update_calm)
      fun _ => .bind (.modify fun _ => id) fun _ => .pure

theorem ofFile_calm (file : MaterialFile) (commands : Bool) :
    Calm (InState .idle) (ofFile file commands) := by
  have last (m : Material) : Calm (InState .idle) (do
      report (.materialLoaded file.name file.shader m.pending)
      keepMaterial m
      pure m : Attempt Library Material) :=
    .bind (.liftHost _) fun _ => .bind (.modify fun _ => id) fun _ => .pure
  refine .bind (loadShader_calm _) fun object => .bind (prepare_calm _
    (.bind (.liftWork (.trivial _)) fun _ => Material.createBuffer_calm)) fun m => ?_
  dsimp only
  split
  · exact .bind ensureDefaultTextures_calm fun _ => .bind (prepareTextures_calm m) last
  · exact .bind (prepare_calm m Material.update_calm) last

theorem loadMaterial_calm (path : String) (commands : Bool) :
    Calm (InState .idle) (loadMaterial path commands) := by
  refine .getHost fun h => .bind (.ofExcept (MaterialHeader.load_unbusy _ _)) fun header =>
    .get fun _ _ => ?_
  split
  · exact .bind (.liftHost _) fun _ => .pure
  · exact .bind (.ofExcept (MaterialFile.load_unbusy _ _)) fun file => ofFile_calm file commands

theorem resolveMaterial_calm (name : String) (m : Material) :
    Calm (InState state) (resolveMaterial name m) :=
  fun l h is => ⟨is, (Material.loadTextures_calm (m, l.textures) h True.intro).2⟩

theorem resolveAll_calm (materials : List (String × Material)) :
    Calm (InState state) (resolveAll materials) := by
  induction materials with
  | nil => exact .pure
  | cons entry rest ih =>
    unfold resolveAll
    split
    · exact .bind (resolveMaterial_calm _ _) fun _ => .bind ih fun _ => .pure
    · exact ih

theorem resolvePending_calm : Calm (InState state) resolvePending :=
  .bind ensureDefaultTextures_calm fun _ => .get fun _ _ => resolveAll_calm _

theorem createDefaultsOf_calm (shaders : List String) :
    Calm (InState .idle) (createDefaultsOf shaders) := by
  induction shaders with
  | nil => exact .pure
  | cons shader rest ih =>
    refine .get fun _ _ => ?_
    split
    · exact ih
    · exact .bind (createMaterial_calm _ _) fun _ => .bind ih fun _ => .pure

theorem createDefaults_calm : Calm (InState .idle) createDefaults :=
  .get fun _ _ => createDefaultsOf_calm _

theorem bindNamed_calm (name : String) : Calm (InState state) (bindNamed name) := by
  refine .get fun _ _ => ?_
  split
  · exact .get fun l _ => fun l' h is => ⟨is, (Material.bind_calm _ _ h True.intro).2⟩
  · exact .throw nofun

theorem saveMaterial_calm (name path : String) : Calm (InState state) (saveMaterial name path) := by
  refine .get fun _ _ => ?_
  split
  · next m _ => exact .ofHost (m.save_unbusy path)
  · exact .throw nofun

theorem shutdown_holds : Work.Holds (InState state) shutdown := by
  intro l h is
  refine (shutdown_ends l h).mono ?_
  rintro _ l' h' ⟨_, same⟩
  rw [InState, same]
  exact is

end Library

/-- **No request finds the registry busy.** Asked of a library whose registry is idle, whatever
the world refuses, an operation leaves it idle and does not answer that it is busy. -/
theorem Operation.calm (op : Operation) : Calm (Library.InState .idle) op.attempt := by
  cases op with
  | world disk loader rejected policy => exact .liftHost _
  | registerSource name text => exact .modify fun _ => id
  | registerShaders names => exact .bind (Library.registerShaders_calm names) fun _ => .pure
  | registerAll => exact .bind Library.registerAll_calm fun _ => .pure
  | compilePending => exact Library.compilePending_calm
  | loadAll => exact Library.loadAll_calm
  | loadShader name => exact .bind (Library.loadShader_calm name) fun _ => .pure
  | regenerate => exact .bind (Library.regenerateExcept_calm []) fun _ => .pure
  | createMaterial name shader =>
    exact .bind (Library.createMaterial_calm name shader) fun _ => .pure
  | createDefaults => exact .bind Library.createDefaults_calm fun _ => .pure
  | loadMaterial path commands =>
    exact .bind (Library.loadMaterial_calm path commands) fun _ => .pure
  | resolvePending => exact .bind Library.resolvePending_calm fun _ => .pure
  | changeMaterial name change =>
    refine .modify fun l is => ?_
    unfold Library.changeMaterial
    split <;> exact is
  | bindMaterial name => exact Library.bindNamed_calm name
  | saveMaterial name path => exact Library.saveMaterial_calm name path
  | releaseTexture path => exact .bind (.liftWork fun _ _ is => is) fun _ => .pure
  | shutdown => exact .liftWork Library.shutdown_holds

end SurfaceShading
