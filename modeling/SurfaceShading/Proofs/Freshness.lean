/-
  Fresh lighting. A library whose registry is not dirty has no stale lighting pass: each one of
  a shader that was built holds the source that the models registered now would give it. And a
  pipeline that a pass holds was made from the bytecode that the pass holds, so what is drawn
  is what was compiled last.

  Both hold in every session, however sources, files and models change in it and whatever the
  device refuses, because they are part of what every request preserves.
-/
import SurfaceShading.Proofs.Session

namespace SurfaceShading

/-- While the registry is not dirty, the lighting passes of the shaders that were built are up
to date. -/
def Library.LightingFresh (l : Library) : Prop :=
  l.registry.dirty = false → ∀ name o, l.built? name = some o → ∀ index ∈ o.shader.lightingPasses,
    ∃ text, o.shader.source index l.registry.models l.config.sourceOptions = .ok text ∧
      o.source? index = some text

/-- Every pipeline that a pass holds is one the device made, once, of the bytecode that the
pass holds. -/
def Library.PipelinesCurrent (l : Library) (d : Device) : Prop :=
  ∀ name o, l.shader? name = some o → ∀ index handle, o.pipeline? index = some handle →
    ∃ pass descriptor, o.compiled? index = some pass ∧
      (∀ made, (handle, made) ∈ d.pipelines ↔ made = descriptor) ∧
      descriptor.vertex = pass.vertex ∧ descriptor.fragment = pass.fragment

namespace Library

variable {l : Library} {d : Device}

theorem Sound.lightingFresh (sound : l.Sound d) : l.LightingFresh := by
  intro clean name o found index lights
  obtain ⟨e, there, built, rfl⟩ := built?_eq_some.1 found
  exact (sound.entry there).lit clean built index lights

theorem Sound.pipelinesCurrent (sound : l.Sound d) : l.PipelinesCurrent d := by
  intro name o known index handle held
  obtain ⟨e, there, rfl⟩ := shader?_eq_some.1 known
  obtain ⟨pass, compiled, pipeline⟩ := Option.bind_eq_some_iff.1 held
  obtain ⟨descriptor, made, vertex, fragment⟩ :=
    (sound.entry there).recorded index pass handle compiled pipeline
  exact ⟨pass, descriptor, compiled, made, vertex, fragment⟩

end Library

/-- **Lighting is fresh.** In every session, whenever the registry is not dirty every lighting
pass of every shader that was built holds the source for the models registered now, and at any
time a pipeline that a pass holds was made of the bytecode in it. -/
theorem Session.lighting_fresh (config : Config) (texts : OrderedMap String String)
    (loader : Loader) (disk : Disk) (ops : List Operation) :
    ((start config texts loader disk).run ops).library.LightingFresh ∧
    ((start config texts loader disk).run ops).library.PipelinesCurrent
      ((start config texts loader disk).run ops).host.device := by
  have sound := run_sound (start_sound config texts loader disk) ops
  exact ⟨sound.library.lightingFresh, sound.library.pipelinesCurrent⟩

end SurfaceShading
