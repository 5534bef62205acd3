/-
  The structure of passes. A deferred shader is completed with the first pass of the shared
  shader unless it declares the name of the shared shader, and its passes light alone if it is
  asked for under that name. Where the two names agree, every pass has a kind: those of the
  shared shader light, a deferred shader has a geometry pass and a lighting pass, and all others
  are forward passes. They disagree for a deferred shader that declares the name of the shared
  one and is held under another: it keeps the passes that its text declares
  (`Session.passes_structured_iff`).
-/
import SurfaceShading.Proofs.History
import SurfaceShading.Proofs.LoadOrder

namespace SurfaceShading

/-! ## What is read -/

/-- The passes are a geometry pass and, but for its queue, a pass of a template. -/
def Completed (passes : List Pass) (template : Pass → Prop) : Prop :=
  ∃ geometry lighting pass, passes = [geometry, lighting] ∧ template pass ∧
    { lighting with queue := pass.queue } = pass

/-- The first pass that a source declares. -/
def FirstPass (source : Except SourceError String) (pass : Pass) : Prop :=
  ∃ text template rest, source = .ok text ∧ Definition.parse text = .ok template ∧
    template.passes = pass :: rest

namespace Definition

variable {authored definition : Definition} {shared : String}
  {source : Except SourceError String}

theorem appendLighting_ok (is : (authored.appendLighting shared source).result = .ok definition) :
    ∃ pass, FirstPass source pass ∧ definition =
      { authored with passes := authored.passes ++ [{ pass with queue := .deferred }] } := by
  cases source with
  | error e => cases is
  | ok text =>
    unfold appendLighting at is
    dsimp only at is
    split at is
    · cases is
    · next template parsed =>
      split at is
      · cases is
      · next pass rest passes =>
        exact ⟨pass, ⟨text, template, rest, rfl, parsed, passes⟩, (Except.ok.inj is).symm⟩

/-- A completed definition: a deferred one that has another name than the shared shader gets the
first pass of that shader behind its only pass, any other stays as it is. -/
theorem complete_ok (is : (authored.complete shared source).result = .ok definition) :
    (authored.queue = .deferred ∧ authored.name ≠ shared ∧ ∃ geometry pass,
      authored.passes = [geometry] ∧ FirstPass source pass ∧
      definition = { authored with passes := [geometry, { pass with queue := .deferred }] }) ∨
    ((authored.queue = .deferred → authored.name = shared) ∧ definition = authored) := by
  unfold complete at is
  split at is
  · next deferred =>
    split at is
    · next single =>
      obtain ⟨geometry, passes⟩ := List.length_eq_one_iff.1 single
      obtain ⟨pass, first, rfl⟩ := appendLighting_ok is
      refine .inl ⟨deferred.1, deferred.2, geometry, pass, passes, first, ?_⟩
      rw [passes]
      rfl
    · cases is
  · next plain =>
    cases is
    exact .inr ⟨fun deferred => Classical.byContradiction fun other => plain ⟨deferred, other⟩, rfl⟩

end Definition

namespace Library

/-- What the text of a name declares by itself, and what it declares once it is completed. -/
structure Authors (l : Library) (disk : Disk) (name : String) (authored definition : Definition) :
    Prop where
  parsed : ∃ text, l.sources.read disk name = .ok text ∧ Definition.parse text = .ok authored
  completed : (authored.complete l.config.sharedShader
    (l.sources.read disk l.config.sharedShader)).result = .ok definition

theorem Declares.authors {l : Library} {disk : Disk} {name : String} {definition : Definition}
    (declares : l.Declares disk name definition) :
    ∃ authored, l.Authors disk name authored definition := by
  obtain ⟨text, read, completed⟩ := declares
  unfold Definition.parseComplete at completed
  dsimp only at completed
  split at completed
  · cases completed
  · next authored parsed => exact ⟨authored, ⟨text, read, parsed⟩, completed⟩

/-- The first pass of the shared shader, as its source declares it. -/
def Template (l : Library) (disk : Disk) : Pass → Prop :=
  FirstPass (l.sources.read disk l.config.sharedShader)

end Library

/-! ## The kinds of passes -/

/-- The passes of a shader are of the kinds that its queue asks for, beside a template of
lighting passes. -/
structure Shader.Structured (shader : Shader) (template : Pass → Prop) : Prop where
  /-- Every pass has a kind, so a source is generated for it. -/
  supported : ∀ index < shader.passCount, (∃ kind, shader.passKind? index = some kind) ∧
    ∀ models options, ∃ text, shader.source index models options = .ok text
  /-- The passes of the shared shader light. -/
  shared : shader.shared = true → ∀ index < shader.passCount,
    shader.passKind? index = some .lighting
  /-- A deferred shader has a geometry pass and the lighting pass of the template. -/
  deferred : shader.shared = false → shader.definition.queue = .deferred →
    Completed shader.definition.passes template ∧
      shader.passKind? 0 = some .gbuffer ∧ shader.passKind? 1 = some .lighting
  /-- All other passes are forward passes. -/
  forward : shader.shared = false → shader.definition.queue = .forward →
    ∀ index < shader.passCount, shader.passKind? index = some .forward

namespace Shader

variable {shader : Shader} {template : Pass → Prop} {index : Nat}

theorem passKind?_of_shared (shared : shader.shared = true) (lt : index < shader.passCount) :
    shader.passKind? index = some .lighting := by
  rw [passKind?, if_pos lt, shared]
  rfl

theorem passKind?_of_forward (own : shader.shared = false)
    (queue : shader.definition.queue = .forward) (lt : index < shader.passCount) :
    shader.passKind? index = some .forward := by
  rw [passKind?, if_pos lt, own, queue]
  rfl

theorem passKind?_of_deferred (own : shader.shared = false)
    (queue : shader.definition.queue = .deferred) (lt : index < shader.passCount) :
    shader.passKind? index = if index = 0 then some .gbuffer
      else if index = 1 then some .lighting else none := by
  rw [passKind?, if_pos lt, own, queue]
  match index with
  | 0 => rfl
  | 1 => rfl
  | _ + 2 => rfl

/-- A pass has no kind exactly if it is the third or a later one of a deferred shader. -/
theorem passKind?_eq_none_iff (lt : index < shader.passCount) :
    shader.passKind? index = none ↔
      shader.shared = false ∧ shader.definition.queue = .deferred ∧ 2 ≤ index := by
  cases shared : shader.shared with
  | true => simp [passKind?_of_shared shared lt]
  | false =>
    cases queue : shader.definition.queue with
    | forward => simp [passKind?_of_forward shared queue lt]
    | deferred =>
      rw [passKind?_of_deferred shared queue lt]
      split
      · next zero => simp [zero]
      · split
        · next one => simp [one]
        · simp
          omega

theorem source_of_kind {kind : PassKind} (is : shader.passKind? index = some kind)
    (models : List ShadingModel) (options : SourceOptions) :
    ∃ text, shader.source index models options = .ok text :=
  ⟨_, source_eq_ok.2 ⟨kind, is, rfl⟩⟩

/-- A shader is structured exactly if it is shared or forward, or has the two passes of a
deferred shader. -/
theorem structured_iff : shader.Structured template ↔
    (shader.shared = false → shader.definition.queue = .deferred →
      Completed shader.definition.passes template) := by
  constructor
  · exact fun structured own queue => (structured.deferred own queue).1
  · intro completed
    have count (own : shader.shared = false) (queue : shader.definition.queue = .deferred) :
        shader.passCount = 2 := by
      obtain ⟨_, _, _, passes, _⟩ := completed own queue
      rw [passCount, passes]
      rfl
    have classified {index : Nat} (lt : index < shader.passCount) :
        ∃ kind, shader.passKind? index = some kind := by
      refine Option.ne_none_iff_exists'.1 fun none => ?_
      obtain ⟨own, queue, high⟩ := (passKind?_eq_none_iff lt).1 none
      rw [count own queue] at lt
      omega
    refine ⟨fun index lt => ?_, fun shared index => passKind?_of_shared shared, fun own queue => ?_,
      fun own queue index => passKind?_of_forward own queue⟩
    · obtain ⟨kind, is⟩ := classified lt
      exact ⟨⟨kind, is⟩, source_of_kind is⟩
    · have two := count own queue
      exact ⟨completed own queue, passKind?_of_deferred own queue (by omega),
        passKind?_of_deferred own queue (by omega)⟩

end Shader

namespace Library

/-- A deferred shader that declares the name of the shared shader is held under another name. -/
def Astray (config : Config) (name : String) (authored : Definition) : Prop :=
  name ≠ config.sharedShader ∧ authored.name = config.sharedShader ∧ authored.queue = .deferred

namespace Authors

variable {l : Library} {disk : Disk} {name : String} {authored : Definition} {shader : Shader}

/-- Completing a definition changes neither its name nor its queue. -/
theorem name_queue (authors : l.Authors disk name authored shader.definition) :
    shader.definition.name = authored.name ∧ shader.definition.queue = authored.queue := by
  rcases Definition.complete_ok authors.completed with ⟨-, -, _, _, -, -, is⟩ | ⟨-, is⟩
  · rw [is]
    exact ⟨rfl, rfl⟩
  · rw [is]
    exact ⟨rfl, rfl⟩

/-- A shader keeps the passes of its text as a deferred one of its own exactly if it is
astray; any other that is deferred is completed. -/
theorem astray_or_completed (authors : l.Authors disk name authored shader.definition)
    (shared : shader.shared = (name == l.config.sharedShader)) (own : shader.shared = false)
    (queue : shader.definition.queue = .deferred) :
    Astray l.config name authored ∧ shader.definition = authored ∨
      ¬ Astray l.config name authored ∧
        Completed shader.definition.passes (l.Template disk) := by
  rcases Definition.complete_ok authors.completed with
    ⟨-, other, geometry, pass, -, first, is⟩ | ⟨screen, is⟩
  · refine .inr ⟨fun astray => other astray.2.1, ?_⟩
    rw [is]
    exact ⟨geometry, _, pass, rfl, first, rfl⟩
  · rw [is] at queue
    have key : name ≠ l.config.sharedShader := by
      rw [own] at shared
      exact ne_of_beq_false shared.symm
    exact .inl ⟨⟨key, screen queue, queue⟩, is⟩

theorem own_deferred_of_astray (authors : l.Authors disk name authored shader.definition)
    (shared : shader.shared = (name == l.config.sharedShader))
    (astray : Astray l.config name authored) :
    shader.shared = false ∧ shader.definition.queue = .deferred ∧
      shader.definition = authored := by
  have own : shader.shared = false := shared.trans (beq_eq_false_iff_ne.2 astray.1)
  have queue := authors.name_queue.2.trans astray.2.2
  exact ⟨own, queue, ((authors.astray_or_completed shared own queue).resolve_right
    fun completed => completed.1 astray).2⟩

theorem structured_iff (authors : l.Authors disk name authored shader.definition)
    (shared : shader.shared = (name == l.config.sharedShader)) :
    shader.Structured (l.Template disk) ↔
      (Astray l.config name authored → Completed authored.passes (l.Template disk)) := by
  rw [Shader.structured_iff]
  constructor
  · intro completed astray
    obtain ⟨own, queue, is⟩ := authors.own_deferred_of_astray shared astray
    exact is ▸ completed own queue
  · intro completed own queue
    rcases authors.astray_or_completed shared own queue with ⟨astray, is⟩ | ⟨_, whole⟩
    · exact is ▸ completed astray
    · exact whole

theorem passKind?_eq_none_iff (authors : l.Authors disk name authored shader.definition)
    (shared : shader.shared = (name == l.config.sharedShader)) {index : Nat}
    (lt : index < shader.passCount) :
    shader.passKind? index = none ↔ Astray l.config name authored ∧ 2 ≤ index := by
  rw [Shader.passKind?_eq_none_iff lt]
  constructor
  · rintro ⟨own, queue, high⟩
    rcases authors.astray_or_completed shared own queue with ⟨astray, -⟩ | ⟨-, completed⟩
    · exact ⟨astray, high⟩
    · obtain ⟨_, _, _, passes, -⟩ := completed
      rw [Shader.passCount, passes] at lt
      exact absurd lt (Nat.not_lt_of_le high)
  · rintro ⟨astray, high⟩
    obtain ⟨own, queue, -⟩ := authors.own_deferred_of_astray shared astray
    exact ⟨own, queue, high⟩

end Authors

end Library

namespace Session

open Library

variable {config : Config} {texts : OrderedMap String String} {loader : Loader} {disk : Disk}

theorem config_run (config : Config) (texts : OrderedMap String String) (loader : Loader)
    (disk : Disk) (ops : List Operation) :
    ((start config texts loader disk).run ops).library.config = config := by
  obtain ⟨_, history⟩ := exists_history (start_sound config texts loader disk) ops
  exact history.config

/-- **The structure of passes.** Every shader that a run comes to hold was read by one of its
operations, from a text that stood in the sources when the operation began. Its passes have the
kinds and the lighting pass that its queue asks for exactly unless it is astray and its text does
not happen to declare just these; and a pass has no kind, so that no source is generated for it,
exactly if it is the third or a later one of a shader that is astray. -/
theorem passes_structured_iff (config : Config) (texts : OrderedMap String String)
    (loader : Loader) (disk : Disk) (ops : List Operation) {name : String} {e : ShaderEntry}
    (there : ((start config texts loader disk).run ops).library.shaders.get? name = some e) :
    ∃ before op after disk' authored, ops = before ++ op :: after ∧
      let s := (start config texts loader disk).run before
      let shader := e.object.shader
      s.host.disk.SameShaderFiles disk' ∧
      s.library.Authors disk' name authored shader.definition ∧
      (shader.definition.name = authored.name ∧ shader.definition.queue = authored.queue) ∧
      (shader.shared = true ↔ name = config.sharedShader) ∧
      (shader.Structured (s.library.Template disk') ↔
        (Astray config name authored → Completed authored.passes (s.library.Template disk'))) ∧
      ∀ index < shader.passCount, (shader.passKind? index = none ↔
        Astray config name authored ∧ 2 ≤ index) := by
  obtain ⟨taken, history⟩ := exists_history (start_sound config texts loader disk) ops
  obtain ⟨t, mem, rfl, made⟩ := holds_of_start history ⟨e, there, rfl⟩
  obtain ⟨before, op, after, split, disk', same, declares⟩ := history.declared t mem
  obtain ⟨authored, authors⟩ := declares.authors
  have settings := config_run config texts loader disk before
  obtain ⟨definition, shared⟩ := Shader.of_made made
  rw [← definition] at authors
  have shared' := shared
  rw [← settings] at shared'
  have structured := authors.structured_iff shared'
  have kinds (index : Nat) (lt : index < e.object.shader.passCount) :=
    authors.passKind?_eq_none_iff shared' lt
  rw [settings] at structured
  refine ⟨before, op, after, disk', authored, split, same, authors, authors.name_queue, ?_,
    structured, fun index lt => ?_⟩
  · rw [shared, beq_iff_eq]
  · rw [kinds index lt, settings]

/-- The registered toon shader is deferred and has the passes of a deferred shader. -/
theorem toon_structured :
    ∃ e before op after disk',
      [Operation.registerShaders ["Toon", "Screen"]] = before ++ op :: after ∧
      (twoShaders.run [.registerShaders ["Toon", "Screen"]]).library.shaders.get? "Toon" = some e ∧
      e.object.shader.definition.queue = .deferred ∧ e.object.shader.passCount = 2 ∧
      e.object.shader.Structured ((twoShaders.run before).library.Template disk') := by
  obtain ⟨e, there, is⟩ := Option.map_eq_some_iff.1 toon_held
  obtain ⟨before, op, after, disk', authored, split, -, -, ⟨name, -⟩, -, structured, -⟩ :=
    passes_structured_iff .standard twoTexts (.stub [] []) .empty
      [.registerShaders ["Toon", "Screen"]] there
  refine ⟨e, before, op, after, disk', split, there, by rw [is]; rfl, by rw [is]; rfl,
    structured.2 fun astray => ?_⟩
  have declared : e.object.shader.definition.name = "Toon" := by rw [is]; rfl
  exact absurd ((declared.symm.trans name).trans astray.2.1) (by decide)

/-- A deferred shader of three passes that declares the name of the shared shader. -/
def doubleText : String :=
  let pass := "Pass \x7b HLSLPROGRAM\n#pragma vertex V\n#pragma fragment P\nENDHLSL \x7d "
  "Shader \"Screen\" \x7b RenderQueue \"Deferred\" " ++ pass ++ pass ++ pass ++ "\x7d"

/-- The shader registered under another name. -/
def doubleSession : Session :=
  (start .standard (OrderedMap.empty.insert "Double" doubleText) (.stub [] []) .empty).run
    [.registerShaders ["Double"]]

/-- It is held with three passes, and the last of them has no kind. -/
theorem double_unsupported :
    (∃ e, doubleSession.library.shaders.get? "Double" = some e ∧
      e.object.shader.definition.name = "Screen" ∧ e.object.shader.shared = false ∧
      e.object.shader.passCount = 3 ∧ e.object.shader.passKind? 2 = none ∧
      ∀ models options, e.object.shader.source 2 models options =
        .error (.unsupportedPass "Screen" 2)) ∧
    ¬ ∀ config texts loader disk ops name e,
      ((start config texts loader disk).run ops).library.shaders.get? name = some e →
        ∀ index < e.object.shader.passCount, ∃ kind, e.object.shader.passKind? index = some kind := by
  have held : (doubleSession.library.shaders.get? "Double").map (fun e =>
      (e.object.shader.definition.name, e.object.shader.shared, e.object.shader.passCount,
        e.object.shader.passKind? 2)) = some ("Screen", false, 3, none) := by decide +kernel
  obtain ⟨e, there, is⟩ := Option.map_eq_some_iff.1 held
  obtain ⟨name, is⟩ := Prod.mk.inj is
  obtain ⟨shared, is⟩ := Prod.mk.inj is
  obtain ⟨count, none⟩ := Prod.mk.inj is
  refine ⟨⟨e, there, name, shared, count, none, fun models options => ?_⟩, fun all => ?_⟩
  · rw [Shader.source_eq, none, Shader.name, name]
  · obtain ⟨kind, is⟩ := all _ _ _ _ _ "Double" e there 2 (by rw [count]; decide)
    rw [none] at is
    cases is

end Session

end SurfaceShading
