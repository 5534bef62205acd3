/-
  Rules for the work of a library on its materials, one for each piece of it, as there are for a
  single material. The material of a file is made in two parts: it is given its settings and its
  buffer (`Library.furnish`), then its textures, after which it is kept (`Library.finishFile`).

  Materials are resolved in the order of their names, and resolving one leaves the others alone;
  so each is still the one of its name when its turn comes (`Library.resolvePending_inOrder`).
-/
import SurfaceShading.Library
import SurfaceShading.Proofs.OrderedMap
import SurfaceShading.Proofs.World.Basic

namespace SurfaceShading.Library

variable {l : Library} {h : Host} {m : Material}
  {post : Except Error Material → Library → Host → Prop}

/-! ## Materials that are not kept yet -/

/-- Preparing a material leaves the library alone. -/
theorem ends_prepare {attempt : Attempt Material Unit} :
    Attempt.Ends (prepare m attempt) l h post ↔
      Attempt.Ends attempt m h fun r m' h' => post (r.map fun _ => m') l h' := Iff.rfl

/-- Resolving its textures concerns the table of textures alone. -/
theorem ends_prepareTextures :
    Attempt.Ends (prepareTextures m) l h post ↔
      Attempt.Ends Material.loadTextures (m, l.textures) h fun r s h' =>
        post (r.map fun _ => s.1) { l with textures := s.2 } h' := Iff.rfl

/-- The rule for a new material: its shader is loaded, it is updated and then kept. -/
theorem createMaterial_rule {name shader : String}
    {mid : Except Error ShaderObject → Library → Host → Prop}
    (there : ∀ m, l.materials.get? name = some m → post (.ok m) l h)
    (loaded : l.materials.get? name = none → Attempt.Ends (loadShader shader) l h mid)
    (refused : ∀ e l₁ h₁, mid (.error e) l₁ h₁ → post (.error e) l₁ h₁)
    (made : ∀ o l₁ h₁, l.materials.get? name = none → mid (.ok o) l₁ h₁ →
      Attempt.Ends Material.update (.new name o.id o.shader) h₁ fun
        | .ok (), m, h₂ => post (.ok m) { l₁ with materials := l₁.materials.insert m.name m } h₂
        | .error e, _, h₂ => post (.error e) l₁ h₂) :
    Attempt.Ends (createMaterial name shader) l h post := by
  unfold createMaterial
  rw [Attempt.ends_bind, Attempt.ends_get, Attempt.after_ok]
  split
  · next m is => exact there m is
  · next new =>
    refine (loaded new).bind (fun o l₁ h₁ held => ?_) refused
    rw [Attempt.ends_bind, ends_prepare]
    refine (made o l₁ h₁ new held).mono fun r m h₂ ended => ?_
    cases r with
    | ok _ => exact ended
    | error e => exact ended

/-! ## Materials of files -/

/-- The material of a file with its settings and its buffer, before its textures are there. -/
def furnish (file : MaterialFile) : Attempt Library Material := do
  let object ← loadShader file.shader
  prepare (.new file.name object.id object.shader) do
    Material.applyFile file
    Material.createBuffer

/-- What is left to do for the material of a file. -/
def finishFile (file : MaterialFile) (commands : Bool) (m : Material) :
    Attempt Library Material := do
  let m ← if commands then do
      ensureDefaultTextures
      prepareTextures m
    else prepare m Material.update
  report (.materialLoaded file.name file.shader m.pending)
  keepMaterial m
  pure m

theorem ofFile_eq (file : MaterialFile) (commands : Bool) :
    ofFile file commands = furnish file >>= finishFile file commands := by
  unfold ofFile furnish finishFile
  rw [bind_assoc]

/-- The rule for the first part: the shader is loaded, then the material is made of it. -/
theorem furnish_rule {file : MaterialFile} {mid : Except Error ShaderObject → Library → Host → Prop}
    (loaded : Attempt.Ends (loadShader file.shader) l h mid)
    (refused : ∀ e l₁ h₁, mid (.error e) l₁ h₁ → post (.error e) l₁ h₁)
    (made : ∀ o l₁ h₁, mid (.ok o) l₁ h₁ → Attempt.Ends (do
        Material.applyFile file
        Material.createBuffer : Attempt Material Unit) (.new file.name o.id o.shader) h₁
          fun r m h₂ => post (r.map fun _ => m) l₁ h₂) :
    Attempt.Ends (furnish file) l h post :=
  loaded.bind made refused

/-- The rule for the second part. With commands the default textures are made and those of the
material loaded, without them it is just updated; what came of it is kept. -/
theorem finishFile_rule {file : MaterialFile} {commands : Bool}
    {S : Except Error Unit → Library → Host → Prop}
    {Q : Except Error Unit → Material → Library → Host → Prop}
    (stocked : commands = true → Attempt.Ends ensureDefaultTextures l h S)
    (unstocked : ∀ e l₁ h₁, commands = true → S (.error e) l₁ h₁ → post (.error e) l₁ h₁)
    (resolved : ∀ l₁ h₁, commands = true → S (.ok ()) l₁ h₁ →
      Attempt.Ends Material.loadTextures (m, l₁.textures) h₁ fun r s h₂ =>
        Q r s.1 { l₁ with textures := s.2 } h₂)
    (updated : commands = false →
      Attempt.Ends Material.update m h fun r m' h₁ => Q r m' l h₁)
    (refused : ∀ e m' l₁ h₁, Q (.error e) m' l₁ h₁ → post (.error e) l₁ h₁)
    (kept : ∀ m' l₁ h₁ h₂, Q (.ok ()) m' l₁ h₁ → h₁.Spares h₂ →
      post (.ok m') { l₁ with materials := l₁.materials.insert m'.name m' } h₂) :
    Attempt.Ends (finishFile file commands m) l h post := by
  have last (r : Except Error Unit) (m' : Material) (l₁ : Library) (h₁ : Host)
      (held : Q r m' l₁ h₁) : Attempt.After (fun m => (do
        report (.materialLoaded file.name file.shader m.pending)
        keepMaterial m
        pure m : Attempt Library Material)) post (r.map fun _ => m') l₁ h₁ := by
    cases r with
    | error e => exact refused e m' l₁ h₁ held
    | ok _ =>
      refine (Attempt.ends_bind _ _).2 ((Attempt.ends_liftHost _).2 ?_)
      exact (report_keeps _ h₁).mono fun _ h₂ spares => kept m' l₁ h₁ h₂ held spares
  unfold finishFile
  dsimp only
  cases commands with
  | true =>
    rw [if_pos rfl]
    refine (stocked rfl).bind (fun _ l₁ h₁ held => ?_) fun e l₁ h₁ => unstocked e l₁ h₁ rfl
    rw [Attempt.ends_bind, ends_prepareTextures]
    exact (resolved l₁ h₁ rfl held).mono fun r s h₂ => last r s.1 _ h₂
  | false =>
    rw [if_neg Bool.false_ne_true, Attempt.ends_bind, ends_prepare]
    exact (updated rfl).mono fun r m' h₁ => last r m' l h₁

/-- The rule for loading a material: the file is no material, or one of its name is there, or
it is the file of a new one. -/
theorem loadMaterial_rule {path : String} {commands : Bool}
    (headless : ∀ e, MaterialHeader.load h.disk path = .error e → post (.error e) l h)
    (there : ∀ header m h', MaterialHeader.load h.disk path = .ok header →
      l.materials.get? header.name = some m → h.Spares h' → post (.ok m) l h')
    (unread : ∀ header e, MaterialHeader.load h.disk path = .ok header →
      l.materials.get? header.name = none → MaterialFile.load h.disk path = .error e →
        post (.error e) l h)
    (new : ∀ header file, MaterialHeader.load h.disk path = .ok header →
      l.materials.get? header.name = none → MaterialFile.load h.disk path = .ok file →
        Attempt.Ends (ofFile file commands) l h post) :
    Attempt.Ends (loadMaterial path commands) l h post := by
  unfold loadMaterial
  rw [Attempt.ends_bind, Attempt.ends_getHost, Attempt.after_ok, Attempt.ends_bind,
    Attempt.ends_ofExcept]
  cases headed : MaterialHeader.load h.disk path with
  | error e => exact headless e headed
  | ok header =>
    rw [Attempt.after_ok, Attempt.ends_bind, Attempt.ends_get, Attempt.after_ok]
    cases known : l.materials.get? header.name with
    | some m =>
      simp only [Attempt.ends_bind, Attempt.ends_liftHost]
      exact (report_keeps _ h).mono fun _ h' spares => there header m h' headed known spares
    | none =>
      rw [Attempt.ends_bind, Attempt.ends_ofExcept]
      cases read : MaterialFile.load h.disk path with
      | error e => exact unread header e headed known read
      | ok file => exact new header file headed known read

/-! ## Resolving -/

section Resolving

variable {materials : List (String × Material)}

/-- The rule of the loop: `P` is about the materials that are still to be resolved. It holds in
the end also when the loop breaks off, since it holds of fewer materials if of more. -/
theorem resolveAll_rule {P : List (String × Material) → Library → Host → Prop}
    (each : ∀ {name m rest l h}, P ((name, m) :: rest) l h →
      Attempt.Ends (resolveMaterial name m) l h fun _ => P rest)
    (fewer : ∀ {entry rest l h}, P (entry :: rest) l h → P rest l h) (start : P materials l h) :
    Attempt.Ends (resolveAll materials) l h fun _ => P [] := by
  have none {l : Library} {h : Host} (materials : List (String × Material))
      (held : P materials l h) : P [] l h := by
    induction materials with
    | nil => exact held
    | cons entry rest ih => exact ih (fewer held)
  induction materials generalizing l h with
  | nil => exact start
  | cons entry rest ih =>
    unfold resolveAll
    split
    · refine (each start).bind (fun _ l₁ h₁ held => ?_) fun _ _ _ => none rest
      exact (ih held).bind (fun _ _ _ => id) fun _ _ _ => id
    · exact ih (fewer start)

/-- What the default textures leave, and resolving a material keeps, is left in the end. -/
theorem resolvePending_rule {P : Library → Host → Prop}
    (stocked : Attempt.Ends ensureDefaultTextures l h fun _ => P)
    (each : ∀ {name m l h}, P l h → Attempt.Ends (resolveMaterial name m) l h fun _ => P) :
    Attempt.Ends resolvePending l h fun _ => P := by
  unfold resolvePending
  refine stocked.bind (fun _ l₁ h₁ held => ?_) fun _ _ _ => id
  rw [Attempt.ends_bind, Attempt.ends_get, Attempt.after_ok]
  exact resolveAll_rule (P := fun _ => P) each id held

/-- The same, with the material that is resolved known to be the one of its name. -/
theorem resolvePending_inOrder {P : Library → Host → Prop} (sorted : l.materials.Sorted)
    (stocked : Attempt.Ends ensureDefaultTextures l h fun _ => P)
    (each : ∀ {name m l h}, l.materials.get? name = some m → P l h →
      Attempt.Ends (resolveMaterial name m) l h fun _ => P) :
    Attempt.Ends resolvePending l h fun _ => P := by
  have same : Attempt.Ends ensureDefaultTextures l h fun _ l₁ _ => l₁.materials = l.materials := rfl
  unfold resolvePending
  refine (stocked.and same).bind (fun _ l₁ h₁ held => ?_) fun _ _ _ => And.left
  rw [Attempt.ends_bind, Attempt.ends_get, Attempt.after_ok]
  refine (resolveAll_rule (P := fun rest l h => P l h ∧
    rest.Pairwise (fun entry later => entry.1 < later.1) ∧
      ∀ entry ∈ rest, l.materials.get? entry.1 = some entry.2) ?_ ?_ ?_).mono fun _ _ _ => And.left
  · rintro name m rest l h ⟨held, ascends, there⟩
    obtain ⟨less, ascends⟩ := List.pairwise_cons.1 ascends
    obtain ⟨first, later⟩ := List.forall_mem_cons.1 there
    have others : Attempt.Ends (resolveMaterial name m) l h fun _ l' _ =>
        ∀ other, other ≠ name → l'.materials.get? other = l.materials.get? other :=
      fun other ne => OrderedMap.get?_insert_of_ne l.materials ne _
    refine ((each first held).and others).mono fun _ l' h' ended => ?_
    refine ⟨ended.1, ascends, fun entry mem => ?_⟩
    rw [ended.2 entry.1 fun eq => Std.lt_irrefl (eq ▸ less entry mem)]
    exact later entry mem
  · rintro entry rest l h ⟨held, ascends, there⟩
    exact ⟨held, (List.pairwise_cons.1 ascends).2, (List.forall_mem_cons.1 there).2⟩
  · have sorted₁ : l₁.materials.Sorted := held.2 ▸ sorted
    exact ⟨held.1, sorted₁, fun _ mem => sorted₁.get?_eq_some_iff.2 mem⟩

end Resolving

/-! ## Materials of a name -/

/-- The rule for saving: the library stays as it is. -/
theorem saveMaterial_rule {name path : String} {post : Except Error Unit → Library → Host → Prop}
    (there : ∀ m, l.materials.get? name = some m →
      HostM.Ends (m.save path) h fun r h' => post r l h')
    (missing : l.materials.get? name = none → post (.error (.materialNotFound name)) l h) :
    Attempt.Ends (saveMaterial name path) l h post := by
  unfold saveMaterial
  rw [Attempt.ends_bind, Attempt.ends_get, Attempt.after_ok]
  split
  · next m is => exact there m is
  · next none => exact missing none

/-- Binding changes the material in its place. -/
theorem ends_bindMaterial {name : String} {post : Except Error Unit → Library → Host → Prop} :
    Attempt.Ends (bindMaterial name m) l h post ↔
      Attempt.Ends (Material.bind l.config.rootSlot) m h fun r m' h' =>
        post r { l with materials := l.materials.insert name m' } h' := by
  unfold bindMaterial
  rw [Attempt.ends_bind, Attempt.ends_get, Attempt.after_ok]
  rfl

end SurfaceShading.Library
