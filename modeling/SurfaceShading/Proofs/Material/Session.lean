/-
  Sessions of one material: the material, the world it works in, and any sequence of what can be
  asked of it, each texture table that it is given being any table. Between two requests the
  files, the texture loader and what the device refuses may change at will.

  Whatever is asked, answered with an error or not, keeps the device coherent with the material
  and writes its buffer only as a whole (`Operation.carries`), and keeps what is set fit for the
  parameters of the shader (`Valid`); so every session does (`Session.run_sound`).
-/
import SurfaceShading.Proofs.Material.Buffer
import SurfaceShading.Proofs.Session

namespace SurfaceShading.Material

/-- One request to a material, or one change of the world. A table of textures has no more slots
than there are words. -/
inductive Operation where
  | world (disk : Disk) (loader : Loader) (rejected : Option String)
      (policy : Nat → DeviceRequest → Option DeviceError)
  | setValue (name : String) (value : Value)
  | setTexturePath (name path : String)
  | applyFile (file : MaterialFile)
  | loadTextures (textures : TextureTable) (words : textures.slots.capacity ≤ indexSpace)
  | pack
  | createBuffer
  | update
  | bind (slot : UInt32)
  | release

/-- Makes a change, or fails with the reason why it is refused. -/
def change (f : Material → Except Error Material) : Attempt Material Unit := do
  set (← Attempt.ofExcept (f (← get)))

/-- A change that is refused changes nothing. -/
theorem ends_change {f : Material → Except Error Material} {m : Material} {h : Host}
    {post : Except Error Unit → Material → Host → Prop} :
    Attempt.Ends (change f) m h post ↔
      match f m with
      | .ok m' => post (.ok ()) m' h
      | .error e => post (.error e) m h := by
  unfold change
  rw [Attempt.ends_bind, Attempt.ends_get, Attempt.after_ok, Attempt.ends_bind,
    Attempt.ends_ofExcept]
  cases f m <;> rfl

/-- What an operation does. -/
def Operation.attempt : Operation → Attempt Material Unit
  | world disk loader rejected policy =>
    liftM (modify fun h => h.altered disk loader rejected policy : HostM Unit)
  | setValue name value => change fun m => m.setValue name value
  | setTexturePath name path => change fun m => m.setTexturePath name path
  | applyFile file => liftM (Material.applyFile file)
  | loadTextures textures _ =>
    Attempt.focus (fun m => (m, textures)) (fun _ s => s.1) Material.loadTextures
  | pack => modify Material.pack
  | createBuffer => Material.createBuffer
  | update => Material.update
  | bind slot => Material.bind slot
  | release => liftM Material.release

/-- A material and the world it works in. -/
structure Session where
  material : Material
  host : Host

namespace Session

/-- A new material of a shader, in any world. -/
def start (name : String) (object : ShaderId) (shader : Shader) (host : Host) : Session :=
  ⟨.new name object shader, host⟩

/-- Performs an operation. What it did stays done when its answer is an error. -/
def perform (s : Session) (op : Operation) : Except Error Unit × Session :=
  let ((answer, material), host) := ((op.attempt.run).run s.material).run s.host
  (answer, ⟨material, host⟩)

/-- The session after an operation. -/
def step (s : Session) (op : Operation) : Session := (s.perform op).2

/-- The session after operations in order. -/
def run (s : Session) (ops : List Operation) : Session := ops.foldl step s

@[simp] theorem run_cons (s : Session) (op : Operation) (rest : List Operation) :
    s.run (op :: rest) = (s.step op).run rest := rfl

/-- What an operation comes to is the next session. -/
theorem ends_perform (s : Session) (op : Operation)
    {post : Except Error Unit → Material → Host → Prop} :
    Attempt.Ends op.attempt s.material s.host post ↔
      post (s.perform op).1 (s.step op).material (s.step op).host := Iff.rfl

end Session

/-! ## What is set fits the parameters -/

/-- Every value has the type of a parameter of its name, and every slot of a texture is a
word. -/
structure Valid (m : Material) : Prop where
  typed : ∀ name value, m.values.get? name = some value →
    ∃ q, m.shader.parameter? name = some q ∧ q.type = .value value.type
  indexed : ∀ name index, m.textureIndices.get? name = some index → index < indexSpace

/-- The material is still one of the same shader, and what is set still fits. -/
structure Evolves (m m' : Material) : Prop where
  shader : m'.shader = m.shader
  valid : m.Valid → m'.Valid

variable {m m' : Material} {h h' : Host}

theorem valid_new (name : String) (object : ShaderId) (shader : Shader) :
    (new name object shader).Valid := ⟨nofun, nofun⟩

instance : Std.Refl Evolves := ⟨fun _ => ⟨rfl, id⟩⟩

instance : Trans Evolves Evolves Evolves :=
  ⟨fun first second => ⟨second.shader.trans first.shader, second.valid ∘ first.valid⟩⟩

theorem SameContents.evolves (same : SameContents m m') : Evolves m m' where
  shader := same.shader
  valid valid := by
    refine ⟨?_, ?_⟩
    · rw [same.values, same.shader]; exact valid.typed
    · rw [same.textureIndices]; exact valid.indexed

theorem setValue_evolves {name : String} {value : Value} (set : m.setValue name value = .ok m') :
    Evolves m m' := by
  obtain ⟨⟨q, found, _, typed, _⟩, rfl⟩ := setValue_eq_ok.1 set
  refine ⟨rfl, fun valid => ⟨fun name' value' is => ?_, valid.indexed⟩⟩
  dsimp only at is
  rw [OrderedMap.get?_insert] at is
  split at is
  · next same =>
    cases is
    exact ⟨q, by rw [same]; exact found, typed⟩
  · exact valid.typed name' value' is

theorem setTexturePath_evolves {name path : String} (set : m.setTexturePath name path = .ok m') :
    Evolves m m' := by
  rw [eq_of_setTexturePath set]
  refine ⟨rfl, fun valid => ⟨valid.typed, fun name' index is => ?_⟩⟩
  dsimp only at is
  rw [OrderedMap.get?_erase] at is
  split at is
  · cases is
  · exact valid.indexed name' index is

theorem BufferMade.sameContents {r : Except Error Unit} (made : BufferMade m h r m' h') :
    SameContents m m' := by
  cases made <;> exact ⟨rfl, rfl, rfl⟩

theorem Updated.sameContents {r : Except Error Unit} (updated : Updated m h r m' h') :
    SameContents m m' := by
  cases updated <;> exact ⟨rfl, rfl, rfl⟩

/-! ## Every operation -/

/-- What an operation makes of a material with which the device is coherent. -/
structure Carried (m : Material) (h : Host) (m' : Material) (h' : Host) : Prop where
  coherent : m'.Coherent h'.device
  wrote : WroteWhole m' h h'
  evolves : Evolves m m'

namespace Carried

theorem marks (coherent : m.Coherent h.device) (marks : Marks m m') (evolves : Evolves m m')
    (kept : h.KeepsBuffers h') : Carried m h m' h' :=
  ⟨coherent.marks marks kept.buffers, .nothing kept.strayWrites kept.writes, evolves⟩

theorem updated {r : Except Error Unit} (coherent : m.Coherent h.device)
    (updated : Updated m h r m' h') : Carried m h m' h' :=
  have carried := updated.carries coherent.made
  ⟨carried.1, carried.2, updated.sameContents.evolves⟩

theorem bound {slot : UInt32} {h₁ : Host} (carried : Carried m h m' h₁)
    (bound : Bound slot m' h₁ h') : Carried m h m' h' where
  coherent := bound.device ▸ carried.coherent
  wrote := ⟨bound.strayWrites.trans carried.wrote.strayWrites, bound.device ▸ carried.wrote.whole⟩
  evolves := carried.evolves

theorem refl (coherent : m.Coherent h.device) : Carried m h m h :=
  .marks coherent (Std.Refl.refl m) (Std.Refl.refl m) (Std.Refl.refl h)

end Carried

theorem change_carries {f : Material → Except Error Material} (coherent : m.Coherent h.device)
    (marks : ∀ {m'}, f m = .ok m' → Marks m m')
    (evolves : ∀ {m'}, f m = .ok m' → Evolves m m') :
    Attempt.Ends (change f) m h fun _ => Carried m h := by
  rw [ends_change]
  cases changed : f m with
  | error e => exact .refl coherent
  | ok m' => exact .marks coherent (marks changed) (evolves changed) (Std.Refl.refl h)

theorem loadTextures_carries {textures : TextureTable} (coherent : m.Coherent h.device)
    (words : textures.slots.capacity ≤ indexSpace) :
    Attempt.Ends loadTextures (m, textures) h fun _ s' => Carried m h s'.1 := by
  refine ends_loadTextures.2 (((resolve_ends _ words m h).and
    (resolve_keeps _ (m, textures) h)).mono ?_)
  rintro _ ⟨m₁, table⟩ h₁ ⟨⟨indices, rfl, indexed⟩, kept⟩
  -- The slots may have changed what is packed, so the buffer is there but no longer coherent.
  have backed : Backed { m with textureIndices := indices, pending := false } h₁.device :=
    ⟨kept.buffers ▸ coherent.live, coherent.made⟩
  refine (update_ends backed).mono fun r m' h' updated => ?_
  have carried := updated.carries coherent.made
  have evolves : Evolves m { m with textureIndices := indices, pending := false } :=
    ⟨rfl, fun valid => ⟨valid.typed, indexed valid.indexed⟩⟩
  refine ⟨carried.1, ⟨carried.2.strayWrites.trans kept.strayWrites, ?_⟩,
    Trans.trans evolves updated.sameContents.evolves⟩
  rw [← kept.writes]
  exact carried.2.whole

theorem bind_carries (slot : UInt32) (coherent : m.Coherent h.device) :
    Attempt.Ends (bind slot) m h fun _ => Carried m h := by
  by_cases stale : m.dirty = true ∨ m.buffer = none
  · refine (bind_stale_ends slot coherent.toBacked stale).mono ?_
    rintro r m' h' ⟨h₁, updated, ⟨_, bound⟩ | ⟨_, rfl⟩⟩
    · exact (Carried.updated coherent updated).bound bound
    · exact .updated coherent updated
  · obtain ⟨clean, there⟩ := not_or.1 stale
    refine (bind_clean_ends slot (Bool.eq_false_iff.2 clean) there).mono ?_
    rintro r _ h' ⟨_, rfl, bound⟩
    exact (Carried.refl coherent).bound bound

theorem release_carries (coherent : m.Coherent h.device) :
    Work.Ends release m h fun _ => Carried m h := by
  refine (release_ends m h).mono ?_
  rintro _ m' h' (⟨_, rfl, rfl⟩ | ⟨rfl, wrote⟩)
  · exact .refl coherent
  · exact ⟨⟨⟨nofun, nofun⟩, nofun⟩, wrote, SameContents.evolves ⟨rfl, rfl, rfl⟩⟩

namespace Operation

/-- Whatever is asked of a material keeps the device coherent with it, writes only whole
buffers, and keeps what is set fit for the parameters. -/
theorem carries (op : Operation) (coherent : m.Coherent h.device) :
    Attempt.Ends op.attempt m h fun _ => Carried m h := by
  cases op with
  | world disk loader rejected policy =>
    have altered : m.Coherent (h.altered disk loader rejected policy).device :=
      coherent.marks (Std.Refl.refl m) rfl
    exact ⟨altered, .nothing rfl rfl, Std.Refl.refl m⟩
  | setValue name value => exact change_carries coherent setValue_marks setValue_evolves
  | setTexturePath name path =>
    exact change_carries coherent setTexturePath_marks setTexturePath_evolves
  | applyFile file =>
    refine (Attempt.ends_liftWork _).2 (((applyFile_ends setValue_marks setTexturePath_marks
      file m h).and ((applyFile_ends setValue_evolves setTexturePath_evolves file m h).and
      (applyFile_keeps file m h))).mono ?_)
    exact fun _ _ _ ⟨marks, evolves, kept⟩ => .marks coherent marks evolves kept
  | loadTextures textures words => exact loadTextures_carries coherent words
  | pack =>
    exact .marks coherent ⟨rfl, rfl, fun clean => ⟨clean, rfl⟩⟩
      (SameContents.evolves ⟨rfl, rfl, rfl⟩) (Std.Refl.refl h)
  | createBuffer =>
    refine (createBuffer_ends m h).mono fun _ _ _ made => ?_
    have carried := coherent.bufferMade made
    exact ⟨carried.1, carried.2, made.sameContents.evolves⟩
  | update => exact (update_ends coherent.toBacked).mono fun _ _ _ => .updated coherent
  | bind slot => exact bind_carries slot coherent
  | release => exact (Attempt.ends_liftWork _).2 (release_carries coherent)

end Operation

/-! ## Every session -/

namespace Session

/-- The device is coherent with the material of a shader, and what is set fits. -/
structure Sound (shader : Shader) (s : Session) : Prop where
  shader : s.material.shader = shader
  coherent : s.material.Coherent s.host.device
  valid : s.material.Valid

theorem start_sound (name : String) (object : ShaderId) (shader : Shader) (host : Host) :
    (start name object shader host).Sound shader :=
  ⟨rfl, coherent_new name object shader host.device, valid_new name object shader⟩

theorem step_carried {shader : Shader} {s : Session} (sound : s.Sound shader) (op : Operation) :
    Carried s.material s.host (s.step op).material (s.step op).host :=
  (s.ends_perform op).1 (op.carries sound.coherent)

theorem step_sound {shader : Shader} {s : Session} (sound : s.Sound shader) (op : Operation) :
    (s.step op).Sound shader :=
  have carried := step_carried sound op
  ⟨carried.evolves.shader.trans sound.shader, carried.coherent, carried.evolves.valid sound.valid⟩

/-- Whatever is asked of a material, its session stays sound. -/
theorem run_sound {shader : Shader} {s : Session} (sound : s.Sound shader) (ops : List Operation) :
    (s.run ops).Sound shader := by
  induction ops generalizing s with
  | nil => exact sound
  | cons op rest ih =>
    have after : (s.step op).Sound shader := step_sound sound op
    rw [run_cons]
    exact ih after

end Session

end SurfaceShading.Material
