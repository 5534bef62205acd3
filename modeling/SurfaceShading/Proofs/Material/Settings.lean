/-
  What a material sets. A value is taken for the first parameter of its name, if that one is no
  texture, has the type of the value, and the value is finite (`Shader.TakesValue`); a path is
  taken for a texture (`Shader.TakesPath`). Nothing else gets into a material, whichever way it
  comes: from a setter, or from a file that may hold anything.

  Main statement: after any session of a material every entry is one that is taken, a setter
  accepts exactly those and a refused one leaves everything as it was, and the file of the
  material makes the same settings again in a new material, without a warning and with the same
  constant buffer apart from the words of the textures (`Material.Session.settings_fit`).
-/
import SurfaceShading.Proofs.Material.Origin
import SurfaceShading.Proofs.Material.Resolution
import SurfaceShading.Proofs.Material.Session

namespace SurfaceShading

/-- A parameter that is no texture has a value for its content. -/
theorem Parameter.content_of_value {q : Parameter} (value : q.isTexture = false) :
    ∃ default, q.content = .value default := by
  cases content : q.content with
  | value default => exact ⟨default, rfl⟩
  | texture dimension name =>
    rw [isTexture, type, content] at value
    cases value

/-- A texture has a dimension. -/
theorem Parameter.dimension_of_texture {q : Parameter} (texture : q.isTexture = true) :
    ∃ dimension, q.type.dimension? = some dimension := by
  rw [isTexture] at texture
  cases type : q.type with
  | value t =>
    rw [type] at texture
    cases texture
  | texture dimension => exact ⟨dimension, rfl⟩

namespace Bytes

/-! ## Buffers that agree at a place -/

/-- The same data leaves buffers agreeing where they agree. -/
theorem getElem?_overwrite_congr {buffer buffer' : List UInt8} {i : Nat} (offset : Nat)
    (data : List UInt8) (lengths : buffer.length = buffer'.length)
    (same : buffer[i]? = buffer'[i]?) :
    (overwrite buffer offset data)[i]? = (overwrite buffer' offset data)[i]? := by
  simp only [overwrite, List.getElem?_append, List.length_append, List.length_take,
    List.getElem?_take, List.getElem?_drop, lengths]
  split
  · split
    · split
      · exact same
      · rfl
    · rfl
  · next behind =>
    by_cases there : i < buffer'.length
    · have here : offset + data.length + (i - (min offset buffer'.length +
          min (buffer'.length - offset) data.length)) = i := by omega
      rw [here]
      exact same
    · rw [List.getElem?_eq_none (by omega), List.getElem?_eq_none (by omega)]

/-- Two pieces that stand at the same range, and are one and the same unless the place `i` is
outside of it. -/
structure SameAt (i : Nat) (piece piece' : Nat × List UInt8) : Prop where
  offset : piece.1 = piece'.1
  length : piece.2.length = piece'.2.length
  data : (i < piece.1 ∨ piece.1 + piece.2.length ≤ i) ∨ piece.2 = piece'.2

/-- Pieces that differ elsewhere alone leave buffers agreeing where they agree. -/
theorem getElem?_layAll_congr {buffer buffer' : List UInt8} {i : Nat}
    {pieces pieces' : List (Nat × List UInt8)} (all : pieces.Forall₂ (SameAt i) pieces')
    (lengths : buffer.length = buffer'.length) (same : buffer[i]? = buffer'[i]?) :
    (layAll buffer pieces)[i]? = (layAll buffer' pieces')[i]? := by
  induction all generalizing buffer buffer' with
  | nil => exact same
  | @cons piece piece' rest rest' first _ ih =>
    obtain ⟨offset, data⟩ := piece
    obtain ⟨offset', data'⟩ := piece'
    obtain ⟨rfl, length, outside | eq⟩ := first
    · refine ih (by simpa using lengths) ?_
      rw [getElem?_overwrite_of_outside buffer outside,
        getElem?_overwrite_of_outside buffer' (length ▸ outside), same]
    · obtain rfl : data = data' := eq
      exact ih (by simpa using lengths) (getElem?_overwrite_congr offset data lengths same)

end Bytes

namespace Material

variable {m m' : Material} {h : Host} {shader : Shader}

/-! ## Entries that are taken -/

/-- A material of a shader that holds only what is taken. -/
structure Fits (shader : Shader) (m : Material) : Prop where
  made : m.shader = shader
  values : ∀ name value, m.values.get? name = some value → shader.TakesValue name value
  paths : ∀ name path, m.texturePaths.get? name = some path → shader.TakesPath name
  sortedValues : m.values.Sorted
  sortedPaths : m.texturePaths.Sorted

theorem fits_new (name : String) (object : ShaderId) (shader : Shader) :
    (new name object shader).Fits shader :=
  ⟨rfl, nofun, nofun, OrderedMap.sorted_empty, OrderedMap.sorted_empty⟩

/-- The second material holds only what is taken if the first does. -/
def Refits (m m' : Material) : Prop := ∀ shader, m.Fits shader → m'.Fits shader

instance : Std.Refl Refits := ⟨fun _ _ => id⟩

instance : Trans Refits Refits Refits :=
  ⟨fun first second shader => second shader ∘ first shader⟩

/-- A state of the material that sets the same. -/
theorem refits_of_same (same : m'.shader = m.shader) (values : m'.values = m.values)
    (paths : m'.texturePaths = m.texturePaths) : Refits m m' := by
  intro _ fits
  refine ⟨same.trans fits.made, ?_, ?_, ?_, ?_⟩
  · rw [values]; exact fits.values
  · rw [paths]; exact fits.paths
  · rw [values]; exact fits.sortedValues
  · rw [paths]; exact fits.sortedPaths

theorem Becomes.refits (becomes : Becomes m m') : Refits m m' :=
  refits_of_same becomes.shader becomes.values becomes.texturePaths

theorem setValue_refits {name : String} {value : Value} (set : m.setValue name value = .ok m') :
    Refits m m' := by
  obtain ⟨taken, rfl⟩ := setValue_eq_ok.1 set
  intro _ fits
  refine ⟨fits.made, fun name' value' is => ?_, fits.paths, fits.sortedValues.insert _ _,
    fits.sortedPaths⟩
  dsimp only at is
  rw [OrderedMap.get?_insert] at is
  split at is
  · next same =>
    cases is
    rw [same, ← fits.made]
    exact taken
  · exact fits.values name' value' is

theorem setTexturePath_refits {name path : String} (set : m.setTexturePath name path = .ok m') :
    Refits m m' := by
  obtain ⟨taken, rfl⟩ := setTexturePath_eq_ok.1 set
  intro _ fits
  refine ⟨fits.made, fits.values, fun name' path' is => ?_, fits.sortedValues,
    fits.sortedPaths.insert _ _⟩
  dsimp only at is
  rw [OrderedMap.get?_insert] at is
  split at is
  · next same => rw [same, ← fits.made]; exact taken
  · exact fits.paths name' path' is

theorem change_refits {f : Material → Except Error Material}
    (refits : ∀ {m'}, f m = .ok m' → Refits m m') :
    Attempt.Ends (change f) m h fun _ m' _ => Refits m m' := by
  rw [ends_change]
  cases changed : f m with
  | error e => exact refits_of_same rfl rfl rfl
  | ok m' => exact refits changed

/-- Whatever is asked of a material, it holds afterwards only what is taken. -/
theorem Operation.refits (op : Operation) (m : Material) (h : Host) :
    Attempt.Ends op.attempt m h fun _ m' _ => Refits m m' := by
  cases op with
  | world disk loader rejected policy => exact refits_of_same rfl rfl rfl
  | setValue name value => exact change_refits setValue_refits
  | setTexturePath name path => exact change_refits setTexturePath_refits
  | applyFile file =>
    exact (Attempt.ends_liftWork _).2
      (applyFile_ends setValue_refits setTexturePath_refits file m h)
  | loadTextures textures _ =>
    refine (Attempt.ends_focus _ _ _).2 ((loadTextures_becomes m textures h).mono ?_)
    exact fun _ _ _ => Becomes.refits
  | pack => exact refits_of_same rfl rfl rfl
  | createBuffer => exact (createBuffer_becomes m h).mono fun _ _ _ => Becomes.refits
  | update => exact (update_becomes m h).mono fun _ _ _ => Becomes.refits
  | bind slot => exact (bind_becomes slot m h).mono fun _ _ _ => Becomes.refits
  | release =>
    refine (Attempt.ends_liftWork _).2 ((release_ends m h).mono ?_)
    rintro _ _ _ (⟨_, rfl, _⟩ | ⟨rfl, _⟩)
    · exact refits_of_same rfl rfl rfl
    · exact refits_of_same rfl rfl rfl

theorem Session.step_fits {s : Session} (fits : s.material.Fits shader) (op : Operation) :
    (s.step op).material.Fits shader :=
  (s.ends_perform op).1 (op.refits s.material s.host) _ fits

theorem Session.run_fits {s : Session} (fits : s.material.Fits shader) (ops : List Operation) :
    (s.run ops).material.Fits shader := by
  induction ops generalizing s with
  | nil => exact fits
  | cons op rest ih =>
    have after : (s.step op).material.Fits shader := step_fits fits op
    rw [run_cons]
    exact ih after

/-! ## Refusals -/

/-- The operations that set a value or a path. -/
inductive Operation.Sets : Operation → Prop where
  | value (name : String) (value : Value) : Sets (.setValue name value)
  | path (name path : String) : Sets (.setTexturePath name path)

/-- A change that is refused changes neither the material nor the world. -/
theorem change_refused (f : Material → Except Error Material) (m : Material) (h : Host) :
    Attempt.Ends (change f) m h fun r m' h' =>
      (∀ e, r = .error e → m' = m ∧ h' = h) ∧ (r = .ok () ↔ ∃ m', f m = .ok m') := by
  rw [ends_change]
  cases f m with
  | error e => exact ⟨fun _ _ => ⟨rfl, rfl⟩, nofun, nofun⟩
  | ok m' => exact ⟨nofun, fun _ => ⟨m', rfl⟩, fun _ => rfl⟩

theorem Session.refused_unchanged {s : Session} {op : Operation} (sets : op.Sets) {e : Error}
    (refused : (s.perform op).1 = .error e) : s.step op = s := by
  have unchanged {f : Material → Except Error Material} (is : op.attempt = change f) :
      s.step op = s := by
    have same := (change_refused f s.material s.host).1
    rw [← is] at same
    obtain ⟨material, host⟩ := same e refused
    exact congrArg₂ Session.mk material host
  cases sets with
  | value name value => exact unchanged rfl
  | path name path => exact unchanged rfl

/-! ## The file of a material, applied again -/

/-- A change that is accepted is made without a report. -/
theorem tryChange_ends {f : Material → Except Error Material} (accepted : f m = .ok m') :
    Work.Ends (tryChange f) m h fun _ m₁ h₁ => m₁ = m' ∧ h₁ = h := by
  unfold tryChange
  rw [Work.ends_bind, Work.ends_get, accepted]
  exact ⟨rfl, rfl⟩

/-- Values that are taken are all set, in their order. -/
theorem setValues_ends {entries : List (String × Value)}
    (taken : ∀ e ∈ entries, m.shader.TakesValue e.1 e.2) :
    Work.Ends (entries.forM fun (name, value) => tryChange fun m => m.setValue name value) m h
      fun _ m' h' => h' = h ∧ m'.shader = m.shader ∧ m'.texturePaths = m.texturePaths ∧
        m'.values = entries.foldl (fun values e => values.insert e.1 e.2) m.values := by
  induction entries generalizing m with
  | nil => exact ⟨rfl, rfl, rfl, rfl⟩
  | cons entry rest ih =>
    have first := setValue_eq_ok.2 ⟨taken entry List.mem_cons_self, rfl⟩
    refine (Work.ends_bind _ _).2 ((tryChange_ends first).mono ?_)
    rintro _ _ _ ⟨rfl, rfl⟩
    exact ih fun e mem => taken e (List.mem_cons_of_mem _ mem)

/-- So are paths. -/
theorem setTexturePaths_ends {entries : List (String × String)}
    (taken : ∀ e ∈ entries, m.shader.TakesPath e.1) :
    Work.Ends (entries.forM fun (name, path) => tryChange fun m => m.setTexturePath name path) m h
      fun _ m' h' => h' = h ∧ m'.shader = m.shader ∧ m'.values = m.values ∧
        m'.texturePaths = entries.foldl (fun paths e => paths.insert e.1 e.2) m.texturePaths := by
  induction entries generalizing m with
  | nil => exact ⟨rfl, rfl, rfl, rfl⟩
  | cons entry rest ih =>
    have first : m.setTexturePath entry.1 entry.2 = .ok _ :=
      setTexturePath_eq_ok.2 ⟨taken entry List.mem_cons_self, rfl⟩
    refine (Work.ends_bind _ _).2 ((tryChange_ends first).mono ?_)
    rintro _ _ _ ⟨rfl, rfl⟩
    exact ih fun e mem => taken e (List.mem_cons_of_mem _ mem)

/-- A new material that takes the settings of another sets the same, and nothing is reported. -/
theorem applyFile_toFile_ends (fits : m.Fits shader) (name : String) (object : ShaderId)
    (h : Host) :
    Work.Ends (applyFile m.toFile) (new name object shader) h fun _ m' h' => h' = h ∧
      m'.shader = shader ∧ m'.values = m.values ∧ m'.texturePaths = m.texturePaths := by
  have values : ∀ e ∈ m.values.entries, shader.TakesValue e.1 e.2 := fun e mem =>
    fits.values e.1 e.2 (fits.sortedValues.get?_eq_some_iff.2 mem)
  have paths : ∀ e ∈ m.texturePaths.entries, shader.TakesPath e.1 := fun e mem =>
    fits.paths e.1 e.2 (fits.sortedPaths.get?_eq_some_iff.2 mem)
  refine (Work.ends_bind _ _).2 ((setValues_ends (m := new name object shader) values).mono ?_)
  rintro _ m₁ _ ⟨rfl, shader₁, paths₁, values₁⟩
  have same : m₁.shader = shader := shader₁
  refine (setTexturePaths_ends (same ▸ paths)).mono ?_
  rintro _ m₂ _ ⟨rfl, shader₂, values₂, paths₂⟩
  refine ⟨rfl, shader₂.trans same, ?_, ?_⟩
  · rw [values₂, values₁]
    exact fits.sortedValues.ofList_entries
  · rw [paths₂, paths₁]
    exact fits.sortedPaths.ofList_entries

/-- A place in the constant buffer that is in the word of no texture. -/
def Shader.OutsideTextures (shader : Shader) (i : Nat) : Prop :=
  ∀ q ∈ shader.layout.parameters, q.isTexture = true →
    i < q.offset.toNat ∨ q.offset.toNat + q.size.toNat ≤ i

/-- Materials of a shader with the same values pack the same, apart from the words of the
textures. -/
theorem getElem?_packed_congr (same : m'.shader = m.shader) (values : m'.values = m.values)
    {i : Nat} (outside : Shader.OutsideTextures m.shader i) : m'.packed[i]? = m.packed[i]? := by
  rw [packed_eq_layAll, packed_eq_layAll, pieces, pieces, same]
  refine Bytes.getElem?_layAll_congr ?_ rfl rfl
  refine List.forall₂_map_left_iff.2 (List.forall₂_map_right_iff.2 (List.forall₂_same.2 ?_))
  intro q mem
  cases is : q.isTexture with
  | false =>
    obtain ⟨default, content⟩ := Parameter.content_of_value is
    have eq : m'.parameterBytes q = m.parameterBytes q := by
      simp only [parameterBytes, content, values]
    exact ⟨rfl, congrArg List.length eq, .inr eq⟩
  | true =>
    have length (m : Material) : (m.parameterBytes q).length = q.size.toNat := by
      rw [parameterBytes_of_isTexture is, Parameter.size_of_isTexture is]
      rfl
    exact ⟨rfl, (length m').trans (length m).symm, .inl (by rw [length]; exact outside q mem is)⟩

/-- What the file of a material makes of a new material of its shader. -/
structure MakesAgain (m : Material) (fresh again : Session) : Prop where
  values : again.material.values = m.values
  paths : again.material.texturePaths = m.texturePaths
  silent : again.host = fresh.host
  packs : ∀ i, Shader.OutsideTextures m.shader i →
    again.material.pack.staging[i]? = m.pack.staging[i]?

theorem Fits.makesAgain (fits : m.Fits shader) (name : String) (object : ShaderId) (h : Host) :
    MakesAgain m (.start name object shader h)
      ((Session.start name object shader h).step (.applyFile m.toFile)) := by
  have applied : Attempt.Ends (Operation.applyFile m.toFile).attempt (new name object shader) h
      fun _ m' h' => h' = h ∧ m'.shader = shader ∧ m'.values = m.values ∧
        m'.texturePaths = m.texturePaths :=
    (Attempt.ends_liftWork _).2 (applyFile_toFile_ends fits name object h)
  obtain ⟨silent, same, values, paths⟩ :=
    ((Session.start name object shader h).ends_perform _).1 applied
  exact ⟨values, paths, silent, fun i outside =>
    getElem?_packed_congr (same.trans fits.made.symm) values outside⟩

/-! ## Every session -/

/-- What holds of the settings of a material of a shader. -/
structure Session.SettingsFit (shader : Shader) (s : Session) : Prop where
  values : ∀ e ∈ s.material.values.entries, shader.TakesValue e.1 e.2
  paths : ∀ e ∈ s.material.texturePaths.entries, shader.TakesPath e.1
  takesValue : ∀ name value,
    (s.perform (.setValue name value)).1 = .ok () ↔ shader.TakesValue name value
  takesPath : ∀ name path,
    (s.perform (.setTexturePath name path)).1 = .ok () ↔ shader.TakesPath name
  refused : ∀ {op : Operation}, op.Sets → ∀ {e}, (s.perform op).1 = .error e → s.step op = s
  again : ∀ name object host, MakesAgain s.material (start name object shader host)
    ((start name object shader host).step (.applyFile s.material.toFile))

/-- **A material only ever holds what its shader takes, and its file sets it again.** Whatever is
asked of a material and however it is answered, every value is finite and of the type of a
parameter that is no texture, every path is that of a texture, a refused setter leaves the
material and the world as they were, and a new material takes all settings from the file without
a warning. -/
theorem Session.settings_fit (name : String) (object : ShaderId) (shader : Shader) (host : Host)
    (ops : List Operation) :
    ((start name object shader host).run ops).SettingsFit shader := by
  have fits : ((start name object shader host).run ops).material.Fits shader :=
    run_fits (fits_new name object shader) ops
  generalize (start name object shader host).run ops = s at fits ⊢
  exact {
    values := fun e mem => fits.values e.1 e.2 (fits.sortedValues.get?_eq_some_iff.2 mem)
    paths := fun e mem => fits.paths e.1 e.2 (fits.sortedPaths.get?_eq_some_iff.2 mem)
    takesValue := fun name value => by
      have accepted := (change_refused (fun m => m.setValue name value) s.material s.host).2
      refine accepted.trans ?_
      simp only [setValue_eq_ok, fits.made, exists_and_left, exists_eq, and_true]
    takesPath := fun name path => by
      have accepted := (change_refused (fun m => m.setTexturePath name path) s.material s.host).2
      refine accepted.trans ?_
      simp only [setTexturePath_eq_ok, fits.made, exists_and_left, exists_eq, and_true]
    refused := refused_unchanged
    again := fits.makesAgain }

end Material

end SurfaceShading
