/-
  What work for materials does to the world. None of it makes a pipeline or touches a shader
  file, with one exception: saving a material writes whatever file it is told to, so of that
  only the device is said to go on as before (`saveMaterial_keeps`).
-/
import SurfaceShading.Proofs.World.Shaders
import SurfaceShading.Proofs.World.Textures

namespace SurfaceShading

/-! ## Materials -/

theorem Commands.bind_keeps (slot : UInt32) (address : Nat) :
    HostM.Keeps Host.Builds (Commands.bind slot address) :=
  .modify fun _ => ⟨.refl _, .refl _, ⟨List.prefix_rfl⟩⟩

namespace Material

theorem createBuffer_keeps : Attempt.Keeps Host.Builds createBuffer := by
  refine .bind .get fun m => ?_
  split
  · exact .bind (.ofDevice (Device.createBuffer_keeps _)) fun _ => .set
  · exact .pure

theorem update_keeps : Attempt.Keeps Host.Builds update := by
  refine .bind createBuffer_keeps fun _ => .bind .modify fun _ => .bind .get fun m => ?_
  split
  · exact .bind (.liftHost (Device.writeBuffer_keeps _ _ _)) fun _ => .set
  · exact .set

theorem bind_keeps (slot : UInt32) : Attempt.Keeps Host.Builds (bind slot) := by
  refine .bind .get fun m => .onCondition update_keeps (.bind .get fun m => ?_)
  split
  · exact .liftHost (Commands.bind_keeps _ _)
  · exact .pure

theorem release_keeps : Work.Keeps Host.Builds release := by
  refine .bind .get fun m => ?_
  split
  · exact .bind (.lift (Device.destroyBuffer_keeps _)) fun _ => .set
  · exact .pure

theorem resolve_keeps (parameters : List (String × String × TextureDimension)) :
    Work.Keeps Host.KeepsBuffers (resolve parameters) := by
  induction parameters with
  | nil => exact .pure
  | cons parameter rest ih =>
    exact .bind (.focus (TextureTable.acquire_keeps _ _)) fun _ => .bind .modify fun _ => ih

theorem loadTextures_keeps : Attempt.Keeps Host.Builds loadTextures :=
  .bind .get fun _ => .bind (.liftWork (resolve_keeps _).spares.builds) fun _ =>
    .bind .modify fun _ => .focus update_keeps

theorem tryChange_keeps (change : Material → Except Error Material) :
    Work.Keeps Host.KeepsBuffers (tryChange change) := by
  refine .bind .get fun m => ?_
  split
  · exact .set
  · exact .lift (report_keepsBuffers rfl)

theorem applyFile_keeps (file : MaterialFile) : Work.Keeps Host.KeepsBuffers (applyFile file) :=
  .bind (.forM (fun _ => tryChange_keeps _) _) fun _ => .forM (fun _ => tryChange_keeps _) _

theorem save_keeps (m : Material) (path : String) : HostM.Keeps Host.Advances (m.save path) := by
  refine .bind .get fun h => .bind (.modify fun h => .refl h.device) fun _ => ?_
  split
  · exact .bind ((report_keeps _).mono fun _ _ spares => spares.device) fun _ => .pure
  · exact .pure

end Material

namespace Library

theorem ensureDefaultTextures_keeps : Attempt.Keeps Host.Builds ensureDefaultTextures :=
  .focus TextureTable.ensureDefaults_keeps.spares.builds

theorem resolveMaterial_keeps (name : String) (m : Material) :
    Attempt.Keeps Host.Builds (resolveMaterial name m) :=
  .mk (.bind .get fun l => .bind (.lift (.runAttempt Material.loadTextures_keeps (m, l.textures)))
    fun _ => .bind .set fun _ => .pure)

theorem bindMaterial_keeps (name : String) (m : Material) :
    Attempt.Keeps Host.Builds (bindMaterial name m) :=
  .bind .get fun _ => .mk (.bind (.lift (.runAttempt (Material.bind_keeps _) m)) fun _ =>
    .bind .modify fun _ => .pure)

theorem saveMaterial_keeps (name path : String) :
    Attempt.Keeps Host.Advances (saveMaterial name path) := by
  refine .bind .get fun l => ?_
  split
  · exact .mk (.lift (Material.save_keeps _ path))
  · exact .throw

theorem releaseTexture_keeps (path : String) : Work.Keeps Host.Builds (releaseTexture path) :=
  .focus (TextureTable.release_keeps path).spares.builds

theorem shutdown_keeps : Work.Keeps Host.Builds shutdown :=
  .bind .get fun _ => .bind (.forM (fun _ => .bind (.lift (.runWork Material.release_keeps _))
    fun _ => .pure) _) fun _ => .bind (.lift (report_keeps _).builds) fun _ =>
    .bind .modify fun _ => .focus TextureTable.clear_keeps.spares.builds

end Library

end SurfaceShading
