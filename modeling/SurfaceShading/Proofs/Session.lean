/-
  Sessions: a library, the world it works in, and any sequence of requests. Between two
  requests the world may change at will: files, the texture loader, what the device refuses and
  what its compiler rejects; sources may be registered and materials changed.

  Every request keeps a session sound, answered with an error or not (`Operation.carries`), so
  every session that starts with a new library is sound (`Session.run_sound`). The same lemma
  says which requests leave a built shader without a pipeline (`Operation.Stops`).
-/
import SurfaceShading.Proofs.Library.Aside

namespace SurfaceShading

/-- One request to a library, or one change of the world. -/
inductive Operation where
  | world (disk : Disk) (loader : Loader) (rejected : Option String)
      (policy : Nat → DeviceRequest → Option DeviceError)
  | registerSource (name text : String)
  | registerShaders (names : List String)
  | registerAll
  | compilePending
  | loadAll
  | loadShader (name : String)
  | regenerate
  | createMaterial (name shader : String)
  | createDefaults
  | loadMaterial (path : String) (commands : Bool)
  | resolvePending
  | changeMaterial (name : String) (change : Material → Material)
  | bindMaterial (name : String)
  | saveMaterial (name path : String)
  | releaseTexture (path : String)
  | shutdown

/-- The world with other files, another loader and another mood of the device. -/
def Host.altered (h : Host) (disk : Disk) (loader : Loader) (rejected : Option String)
    (policy : Nat → DeviceRequest → Option DeviceError) : Host :=
  { h with
    disk := disk
    loader := loader
    device := { h.device with rejected := rejected, policy := policy } }

namespace Library

/-- The library with one material changed, if it is there. -/
def changeMaterial (name : String) (change : Material → Material) (l : Library) : Library :=
  match l.materials.get? name with
  | some m => { l with materials := l.materials.insert name (change m) }
  | none => l

/-- Binds the material of a name. -/
def bindNamed (name : String) : Attempt Library Unit := do
  match (← get).materials.get? name with
  | some m => bindMaterial name m
  | none => throw (.materialNotFound name)

/-- The rule for binding: if there is no material of the name, nothing is done. -/
theorem bindNamed_rule {name : String} {l : Library} {h : Host}
    {post : Except Error Unit → Library → Host → Prop}
    (there : ∀ m, l.materials.get? name = some m → Attempt.Ends (bindMaterial name m) l h post)
    (missing : post (.error (.materialNotFound name)) l h) :
    Attempt.Ends (bindNamed name) l h post := by
  unfold bindNamed
  rw [Attempt.ends_bind, Attempt.ends_get, Attempt.after_ok]
  split
  · next m is => exact there m is
  · exact missing

end Library

namespace Attempt

variable {σ α : Type} {x : Attempt σ α} {t : σ} {h : Host} {P : σ → Host → Prop}

/-! An attempt whose answer is dropped, all but the error. -/

theorem Ends.done (ends : Ends x t h fun _ => P) : Ends (do let _ ← x) t h fun _ => P :=
  ends.bind (fun _ _ _ held => held) fun _ _ _ held => held

theorem Ends.done_of_ok (ends : Ends x t h fun r t' h' => (∃ a, r = .ok a) → P t' h') :
    Ends (do let _ ← x) t h fun r t' h' => r = .ok () → P t' h' := by
  refine ends.bind ?_ ?_
  · exact fun a _ _ held _ => held ⟨a, rfl⟩
  · intro e _ _ _ ok
    cases ok

theorem Succeeds.done (ok : Succeeds x t h) : Succeeds (do let _ ← x) t h :=
  ok.bind ok fun _ _ _ _ => ⟨(), rfl⟩

end Attempt

/-- What an operation does, with no more of its answer than whether it is an error. -/
def Operation.attempt : Operation → Attempt Library Unit
  | world disk loader rejected policy =>
    liftM (modify fun h => h.altered disk loader rejected policy : HostM Unit)
  | registerSource name text => modify fun l => { l with sources := l.sources.register name text }
  | registerShaders names => do let _ ← Library.registerShaders names
  | registerAll => do let _ ← Library.registerAll
  | compilePending => Library.compilePending
  | loadAll => Library.loadAll
  | loadShader name => do let _ ← Library.loadShader name
  | regenerate => do let _ ← Library.regenerate
  | createMaterial name shader => do let _ ← Library.createMaterial name shader
  | createDefaults => do let _ ← Library.createDefaults
  | loadMaterial path commands => do let _ ← Library.loadMaterial path commands
  | resolvePending => do let _ ← Library.resolvePending
  | changeMaterial name change => modify (Library.changeMaterial name change)
  | bindMaterial name => Library.bindNamed name
  | saveMaterial name path => Library.saveMaterial name path
  | releaseTexture path => do let _ ← liftM (Library.releaseTexture path)
  | shutdown => liftM Library.shutdown

/-- A library and the world it works in. -/
structure Session where
  library : Library
  host : Host

namespace Session

/-- A new library of some settings and registered texts, in a world to which nothing has
happened. -/
def start (config : Config) (texts : OrderedMap String String) (loader : Loader)
    (disk : Disk) : Session :=
  let (library, host) := (Library.create config).run (.new loader disk)
  ⟨{ library with sources := { library.sources with registered := texts } }, host⟩

/-- Performs an operation. What it did stays done when its answer is an error. -/
def perform (s : Session) (op : Operation) : Except Error Unit × Session :=
  let ((answer, library), host) := ((op.attempt.run).run s.library).run s.host
  (answer, ⟨library, host⟩)

/-- The session after an operation. -/
def step (s : Session) (op : Operation) : Session := (s.perform op).2

/-- The session after operations in order. -/
def run (s : Session) (ops : List Operation) : Session := ops.foldl step s

@[simp] theorem run_cons (s : Session) (op : Operation) (rest : List Operation) :
    s.run (op :: rest) = (s.step op).run rest := rfl

theorem run_single (s : Session) (op : Operation) : s.run [op] = s.step op := rfl

/-- What an operation comes to is the next session. -/
theorem ends_perform (s : Session) (op : Operation)
    {post : Except Error Unit → Library → Host → Prop} :
    Attempt.Ends op.attempt s.library s.host post ↔
      post (s.perform op).1 (s.step op).library (s.step op).host := Iff.rfl

end Session

/-! ## Requests keep a session sound -/

namespace Operation

open Library

/-- The operation comes to a regeneration of lighting passes that the device stops by refusing
a pipeline. -/
def Stops : Operation → Library → Host → Prop
  | compilePending, l, h => l.StopsPending h
  | loadAll, l, h => l.StopsAll h
  | loadShader name, l, h => StopsLoad name l h
  | regenerate, l, h => Attempt.Ends (regenerateExcept []) l h Attempt.Refused
  | createMaterial name shader, l, h => l.materials.get? name = none ∧ StopsLoad shader l h
  | loadMaterial path _, l, h => ∃ header file, MaterialHeader.load h.disk path = .ok header ∧
      l.materials.get? header.name = none ∧ MaterialFile.load h.disk path = .ok file ∧
      StopsLoad file.shader l h
  | _, _, _ => False

end Operation

/-- What an operation makes of a sound library with an idle registry. -/
structure Library.Carried (stops : Prop) (l l' : Library) (h' : Host) : Prop where
  sound : l'.Sound h'.device
  idle : l'.registry.state = .idle
  drawable : l.Drawable → (l'.Drawable ↔ ¬ stops)

namespace Library.Carried

variable {l l' : Library} {h h' : Host} {stops : Prop}

/-- Nothing was stopped. -/
theorem ofUnstopped (sound : l'.Sound h'.device) (idle : l'.registry.state = .idle)
    (drawable : l.Drawable → l'.Drawable) : Carried False l l' h' :=
  ⟨sound, idle, fun drawn => iff_of_true (drawable drawn) id⟩

theorem ofAside (sound : l.Sound h.device) (idle : l.registry.state = .idle)
    (aside : Aside l h l' h') : Carried False l l' h' :=
  .ofUnstopped (aside.sound sound) (aside.idle idle) aside.drawable.2

theorem aside {l₁ : Library} {h₁ : Host} (carried : Carried stops l l₁ h₁)
    (aside : Aside l₁ h₁ l' h') : Carried stops l l' h' where
  sound := aside.sound carried.sound
  idle := aside.idle carried.idle
  drawable drawn := aside.drawable.trans (carried.drawable drawn)

theorem congr {stops' : Prop} (carried : Carried stops l l' h') (same : stops' ↔ stops) :
    Carried stops' l l' h' :=
  { carried with drawable := fun drawn => (carried.drawable drawn).trans (not_congr same.symm) }

theorem ofGathered (sound : l.Sound h.device) (idle : l.registry.state = .idle)
    (gathered : Gathered l h l' h') : Carried False l l' h' :=
  .ofUnstopped (gathered.moves.sound sound) (gathered.state.trans idle) gathered.drawable

end Library.Carried

namespace Library

variable {l : Library} {h : Host}

theorem changeMaterial_aside (name : String) (change : Material → Material) (l : Library)
    (h : Host) : Aside l h (changeMaterial name change l) h := by
  refine ⟨?_, .refl _⟩
  unfold changeMaterial
  split <;> rfl

theorem loadShader_carries (name : String) (sound : l.Sound h.device)
    (idle : l.registry.state = .idle) :
    Attempt.Ends (loadShader name) l h fun _ => Carried (StopsLoad name l h) l := by
  refine (loadShader_ends name l h sound idle).mono ?_
  rintro r l' h' (⟨o, built, _, rfl, builds⟩ | ⟨_, loaded⟩)
  · refine ⟨sound.advance builds.device, idle, fun drawn => iff_of_true drawn fun stops => ?_⟩
    have new := stops.1
    rw [built] at new
    cases new
  · exact ⟨loaded.moves.sound sound, loaded.idle, loaded.drawable⟩

theorem regenerate_carries (sound : l.Sound h.device) (idle : l.registry.state = .idle) :
    Attempt.Ends regenerate l h fun _ =>
      Carried (Attempt.Ends (regenerateExcept []) l h Attempt.Refused) l := by
  refine ((regenerateExcept_ends [] l h sound idle
    (fun _ mem => absurd mem List.not_mem_nil)).and (.here _ _ _ Attempt.Refused)).mono ?_
  rintro r l' h' ⟨regenerated, refused⟩
  refine ⟨regenerated.moves.sound sound, by rw [regenerated.same]; exact idle, fun drawn => ?_⟩
  rw [regenerated.drawable drawn, refused, Attempt.Refused, not_exists]

theorem createMaterial_carries (name shader : String) (sound : l.Sound h.device)
    (idle : l.registry.state = .idle) :
    Attempt.Ends (createMaterial name shader) l h fun _ =>
      Carried (l.materials.get? name = none ∧ StopsLoad shader l h) l := by
  refine createMaterial_ends (P := Carried _ l) name shader (fun m there => ?_) (fun new => ?_)
    fun aside carried => carried.aside aside
  · refine (Carried.ofAside sound idle (.refl l h)).congr (iff_of_false ?_ id)
    rintro ⟨new, _⟩
    cases there.symm.trans new
  · exact (loadShader_carries shader sound idle).mono fun _ _ _ carried =>
      carried.congr (and_iff_right new)

theorem loadMaterial_carries (path : String) (commands : Bool) (sound : l.Sound h.device)
    (idle : l.registry.state = .idle) :
    Attempt.Ends (loadMaterial path commands) l h fun _ =>
      Carried ((Operation.loadMaterial path commands).Stops l h) l := by
  have unstopped {stops : Prop} (not : ¬ stops) {h' : Host} (spares : h.Spares h') :
      Carried stops l l h' :=
    (Carried.ofAside sound idle ⟨rfl, spares.device⟩).congr (iff_of_false not id)
  unfold Operation.Stops
  refine loadMaterial_rule ?_ ?_ ?_ ?_
  · intro e headless
    refine unstopped ?_ (Std.Refl.refl h)
    rintro ⟨header, _, eq, _⟩
    cases headless.symm.trans eq
  · intro header m h' headed there spares
    refine unstopped ?_ spares
    rintro ⟨header', _, eq, new, _⟩
    cases headed.symm.trans eq
    cases there.symm.trans new
  · intro header e _ _ unread
    refine unstopped ?_ (Std.Refl.refl h)
    rintro ⟨_, file, _, _, eq, _⟩
    cases unread.symm.trans eq
  · intro header file headed there read
    refine ofFile_ends (P := Carried _ l) file commands
      ((loadShader_carries file.shader sound idle).mono fun _ _ _ carried => ?_)
      fun aside carried => carried.aside aside
    refine carried.congr ⟨?_, fun stops => ⟨header, file, headed, there, read, stops⟩⟩
    rintro ⟨_, _, _, _, eq, stops⟩
    cases read.symm.trans eq
    exact stops

end Library

namespace Operation

open Library

/-- Every operation keeps a library sound and its registry idle, and unless it stops, all its
shaders can be drawn afterwards if they could before. -/
theorem carries (op : Operation) (l : Library) (h : Host) (sound : l.Sound h.device)
    (idle : l.registry.state = .idle) :
    Attempt.Ends op.attempt l h fun _ => Carried (op.Stops l h) l := by
  have beside {l' : Library} {h' : Host} (aside : Aside l h l' h') : Carried False l l' h' :=
    .ofAside sound idle aside
  cases op with
  | world disk loader rejected policy =>
    exact .ofUnstopped { sound with entry := fun there => { sound.entry there with } } idle id
  | registerSource name text => exact .ofUnstopped { sound with } idle id
  | registerShaders names =>
    exact .done ((registerShaders_ends names l h idle).mono fun _ _ _ ⟨gathered, _⟩ =>
      .ofGathered sound idle gathered)
  | registerAll =>
    exact .done ((registerAll_ends l h idle).mono fun _ _ _ ⟨gathered, _⟩ =>
      .ofGathered sound idle gathered)
  | compilePending =>
    exact (compilePending_ends l h sound idle).mono fun _ _ _ compiled =>
      ⟨compiled.moves.sound sound, compiled.idle, compiled.drawable⟩
  | loadAll =>
    exact (loadAll_ends l h sound idle).mono fun _ _ _ loaded =>
      ⟨loaded.moves.sound sound, loaded.idle, loaded.drawable⟩
  | loadShader name => exact .done (loadShader_carries name sound idle)
  | regenerate => exact .done (regenerate_carries sound idle)
  | createMaterial name shader => exact .done (createMaterial_carries name shader sound idle)
  | createDefaults =>
    exact .done ((createDefaults_aside sound.shaders_sorted).mono fun _ _ _ => beside)
  | loadMaterial path commands => exact .done (loadMaterial_carries path commands sound idle)
  | resolvePending => exact .done ((resolvePending_aside l h).mono fun _ _ _ => beside)
  | changeMaterial name change =>
    exact beside (changeMaterial_aside name change l h)
  | bindMaterial name =>
    exact bindNamed_rule (fun m _ => (bindMaterial_aside name m).mono fun _ _ _ => beside)
      (beside (.refl l h))
  | saveMaterial name path => exact (saveMaterial_aside name path).mono fun _ _ _ => beside
  | releaseTexture path =>
    exact .done ((Attempt.ends_liftWork _).2 ((releaseTexture_aside path).mono
      fun _ _ _ => beside))
  | shutdown =>
    refine (Attempt.ends_liftWork _).2 ((shutdown_ends l h).mono fun _ l' h' => ?_)
    rintro ⟨world, same⟩
    have advanced := sound.advance world
    rw [same]
    exact .ofUnstopped
      { advanced with
        shaders_sorted := OrderedMap.sorted_empty
        pending_nodup := .nil
        pending_waits := fun _ mem => absurd mem List.not_mem_nil
        entry := fun is => nomatch is } idle fun _ _ _ is => nomatch is

end Operation

namespace Session

/-- The library is sound and its registry idle. -/
structure Sound (s : Session) : Prop where
  library : s.library.Sound s.host.device
  idle : s.library.registry.state = .idle

theorem start_sound (config : Config) (texts : OrderedMap String String) (loader : Loader)
    (disk : Disk) : (start config texts loader disk).Sound where
  library := { Library.Sound.new config (.new config.capacity.toNat config.baseRegister.toNat)
    Device.sound_new with }
  idle := rfl

theorem step_carried {s : Session} (sound : s.Sound) (op : Operation) :
    Library.Carried (op.Stops s.library s.host) s.library (s.step op).library (s.step op).host :=
  (s.ends_perform op).1 (op.carries s.library s.host sound.library sound.idle)

theorem step_sound {s : Session} (sound : s.Sound) (op : Operation) : (s.step op).Sound :=
  ⟨(step_carried sound op).sound, (step_carried sound op).idle⟩

/-- Whatever is asked of a sound session, it stays sound. -/
theorem run_sound {s : Session} (sound : s.Sound) (ops : List Operation) : (s.run ops).Sound := by
  induction ops generalizing s with
  | nil => exact sound
  | cons op rest ih =>
    have after : (s.step op).Sound := step_sound sound op
    rw [run_cons]
    exact ih after

end Session

end SurfaceShading
