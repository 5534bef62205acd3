/-
  Shading models in the dispatch. A geometry pass writes the number of its shader's model, or
  zero, and the lighting pass evaluates the case of that number. The dispatch over the
  registered models has one case for each of their numbers, with the code of all of them above
  it; and a registered model is the first of the run that was taken in with its number. So the
  number of a declared model selects the first model of that number, and zero selects the
  standard one unless some shader declares a model of number zero (`Session.selects_iff`).
-/
import SurfaceShading.Proofs.History
import SurfaceShading.Proofs.LoadOrder

namespace SurfaceShading

namespace Dispatch

/-! ## Cases -/

theorem foldl_add {models : List ShadingModel} {dispatch : Dispatch}
    (distinct : (models.map ShadingModel.id).Nodup)
    (fresh : ∀ model ∈ models, ∀ c ∈ dispatch.cases, c.1 ≠ model.id) :
    models.foldl add dispatch = ⟨dispatch.bodies ++ models.map bodyText,
      dispatch.cases ++ models.map fun model => (model.id, model.call)⟩ := by
  induction models generalizing dispatch with
  | nil => simp
  | cons model models ih =>
    obtain ⟨unlike, distinct⟩ := List.nodup_cons.1 distinct
    obtain ⟨here, later⟩ := List.forall_mem_cons.1 fresh
    have added : dispatch.add model =
        ⟨dispatch.bodies ++ [bodyText model], dispatch.cases ++ [(model.id, model.call)]⟩ := by
      refine if_neg fun known => ?_
      obtain ⟨c, mem, same⟩ := List.any_eq_true.1 known
      exact here c mem (eq_of_beq same)
    rw [List.foldl_cons, added, ih distinct]
    · simp
    · intro other mem c listed
      rcases List.mem_append.1 listed with listed | listed
      · exact later other mem c listed
      · rw [List.mem_singleton.1 listed]
        exact fun same => unlike (List.mem_map.2 ⟨other, mem, same.symm⟩)

/-- Models of different numbers have one case each. -/
theorem ofModels_eq {models : List ShadingModel} (distinct : (models.map ShadingModel.id).Nodup) :
    ofModels models = ⟨models.map bodyText, models.map fun model => (model.id, model.call)⟩ :=
  foldl_add distinct fun _ _ _ mem => absurd mem List.not_mem_nil

theorem cases_ofModels {models : List ShadingModel}
    (distinct : (models.map ShadingModel.id).Nodup) :
    (ofModels models).cases = models.map fun model => (model.id, model.call) :=
  congrArg Dispatch.cases (ofModels_eq distinct)

theorem bodies_ofModels {models : List ShadingModel}
    (distinct : (models.map ShadingModel.id).Nodup) :
    (ofModels models).bodies = models.map bodyText :=
  congrArg Dispatch.bodies (ofModels_eq distinct)

/-- The cases of a number. -/
def casesOf (dispatch : Dispatch) (id : UInt32) : List (UInt32 × String) :=
  dispatch.cases.filter fun c => c.1 == id

theorem filter_cases_eq_nil {models : List ShadingModel} {id : UInt32}
    (none : id ∉ models.map ShadingModel.id) :
    (models.map fun model => (model.id, model.call)).filter (fun c => c.1 == id) = [] := by
  rw [List.filter_eq_nil_iff]
  rintro c mem same
  obtain ⟨model, listed, rfl⟩ := List.mem_map.1 mem
  exact none (List.mem_map.2 ⟨model, listed, eq_of_beq same⟩)

/-- A number that no model of the list has falls to the standard one. -/
theorem casesOf_eq_nil_iff {models : List ShadingModel} {id : UInt32}
    (distinct : (models.map ShadingModel.id).Nodup) :
    (ofModels models).casesOf id = [] ↔ id ∉ models.map ShadingModel.id := by
  rw [casesOf, cases_ofModels distinct]
  refine ⟨fun empty mem => ?_, filter_cases_eq_nil⟩
  obtain ⟨model, listed, rfl⟩ := List.mem_map.1 mem
  exact List.filter_eq_nil_iff.1 empty _ (List.mem_map_of_mem listed) (beq_self_eq_true _)

/-- A model of the list has the only case of its number. -/
theorem casesOf_of_mem {models : List ShadingModel} {model : ShadingModel}
    (distinct : (models.map ShadingModel.id).Nodup) (mem : model ∈ models) :
    (ofModels models).casesOf model.id = [(model.id, model.call)] := by
  rw [casesOf, cases_ofModels distinct]
  obtain ⟨before, after, rfl⟩ := List.append_of_mem mem
  rw [List.map_append, List.map_cons, List.nodup_append] at distinct
  obtain ⟨-, distinct, apart⟩ := distinct
  rw [List.map_append, List.map_cons, List.filter_append,
    filter_cases_eq_nil fun mem => apart _ mem _ List.mem_cons_self rfl,
    List.filter_cons_of_pos (by simp), filter_cases_eq_nil (List.nodup_cons.1 distinct).1,
    List.nil_append]

/-- The code of a model stands above the function, and its case within. -/
def Evaluates (dispatch : Dispatch) (model : ShadingModel) : Prop :=
  ∃ start between head rest, dispatch.text =
    start ++ bodyText model ++ between ++ signature ++ head ++
      caseLine (model.id, model.call) ++ rest

theorem evaluates_of_mem {models : List ShadingModel} {model : ShadingModel}
    (distinct : (models.map ShadingModel.id).Nodup) (mem : model ∈ models) :
    (ofModels models).Evaluates model := by
  have cases := cases_ofModels distinct
  have bodies := bodies_ofModels distinct
  obtain ⟨before, after, rfl⟩ := List.append_of_mem mem
  rw [List.map_append, List.map_cons] at cases bodies
  unfold Evaluates text
  rw [cases, bodies]
  simp only [List.map_append, List.map_cons, String.join_append, String.join_cons]
  refine ⟨String.join ((before.map bodyText).map (· ++ "\n")),
    "\n" ++ String.join ((after.map bodyText).map (· ++ "\n")),
    "\n\x7b\n    switch (shadingModel)\n    \x7b\n" ++
      String.join ((before.map fun model => (model.id, model.call)).map caseLine),
    String.join ((after.map fun model => (model.id, model.call)).map caseLine) ++
      "    default:\n        return StandardBRDF(input);\n    \x7d\n\x7d\n", ?_⟩
  simp only [String.append_assoc]

end Dispatch

namespace ModelRegistry

variable {r : ModelRegistry}

/-- The models of a registry have the numbers that they are registered under. -/
theorem map_id_models (sorted : r.entries.Sorted) (keyed : r.Keyed) :
    r.models.map ShadingModel.id = r.entries.keys := by
  unfold models OrderedMap.values OrderedMap.keys
  rw [List.map_map]
  exact List.map_congr_left fun entry mem => keyed entry.1 entry.2 (sorted.get?_eq_some_iff.2 mem)

theorem nodup_ids (sorted : r.entries.Sorted) (keyed : r.Keyed) :
    (r.models.map ShadingModel.id).Nodup := by
  rw [map_id_models sorted keyed]
  exact sorted.nodup_keys

theorem mem_models (sorted : r.entries.Sorted) {id : UInt32} {model : ShadingModel}
    (is : r.get? id = some model) : model ∈ r.models :=
  List.mem_map_of_mem (sorted.get?_eq_some_iff.1 is)

end ModelRegistry

/-! ## The number of a geometry pass -/

theorem Source.modelId_of_some {definition : Definition} {model : ShadingModel}
    (is : definition.model = some model) : modelId definition = model.id := by
  rw [modelId, is]

theorem Source.modelId_of_none {definition : Definition} (is : definition.model = none) :
    modelId definition = 0 := by
  rw [modelId, is]

/-- A text defines the number of the shading model. -/
def DefinesModel (text : String) (id : UInt32) : Prop :=
  ∃ before after, text = before ++ s!"#define SHADING_MODEL_ID {id}\n\n" ++ after

/-- The source of a geometry pass defines the number of the model of its shader. -/
theorem Shader.definesModel {shader : Shader} {index : Nat} {models : List ShadingModel}
    {options : SourceOptions} {text : String} (gbuffer : shader.passKind? index = some .gbuffer)
    (generated : shader.source index models options = .ok text) :
    DefinesModel text (Source.modelId shader.definition) := by
  obtain ⟨kind, is, rfl⟩ := Shader.source_eq_ok.1 generated
  rw [gbuffer] at is
  cases is
  have inputs : ∃ before body, Source.generate shader.definition index .gbuffer
      shader.layout.parameters models options =
        before ++ Source.passInputs shader.definition .gbuffer models ++ body := by
    unfold Source.generate
    dsimp only
    exact ⟨_, _, rfl⟩
  have number : Source.passInputs shader.definition .gbuffer models =
      s!"#define SHADING_MODEL_ID {Source.modelId shader.definition}\n\n" ++
        NativeCode.gbufferOutput := rfl
  obtain ⟨before, body, eq⟩ := inputs
  refine ⟨before, NativeCode.gbufferOutput ++ body, ?_⟩
  rw [eq, number]
  simp only [String.append_assoc]

/-- The number that a shader writes selects its model in a dispatch: the case of the number is
the only one and calls the first model of the number that was taken in, whose code stands above
the function. Where the shader declares no model, its number has no case. -/
def Shader.Selects (shader : Shader) (dispatch : Dispatch) (taken : List Taken) : Prop :=
  match shader.definition.model with
  | none => dispatch.casesOf (Source.modelId shader.definition) = []
  | some model => ∃ first, firstModel? taken model.id = some first ∧ first.id = model.id ∧
      dispatch.casesOf (Source.modelId shader.definition) = [(model.id, first.call)] ∧
      dispatch.Evaluates first

namespace Session

open Library

variable {config : Config} {texts : OrderedMap String String} {loader : Loader} {disk : Disk}
  {ops : List Operation} {taken : List Taken}

/-- The model that a held shader declares has its number in the history. -/
theorem firstModel?_of_holds (history : History (start config texts loader disk) ops taken)
    {name : String} {shader : Shader}
    (held : ((start config texts loader disk).run ops).library.Holds name shader)
    {model : ShadingModel} (is : shader.definition.model = some model) :
    ∃ first, firstModel? taken model.id = some first := by
  obtain ⟨t, mem, -, made⟩ := holds_of_start history held
  rw [(Shader.of_made made).1] at is
  cases found : firstModel? taken model.id with
  | some first => exact ⟨first, rfl⟩
  | none =>
    have listed : model ∈ taken.filterMap Taken.model? := List.mem_filterMap.2 ⟨t, mem, is⟩
    exact absurd (beq_self_eq_true model.id) (List.find?_eq_none.1 found model listed)

/-- **Which model a number selects.** In every run the geometry passes of a shader that is held
define the number of its model, or zero, compiled or not. In the dispatch over the registered
models the number selects the first model of that number that the run took in; and where the
shader declares none, zero has no case exactly if the run took in no model of number zero. -/
theorem selects_iff (config : Config) (texts : OrderedMap String String) (loader : Loader)
    (disk : Disk) (ops : List Operation) :
    (∃ taken, History (start config texts loader disk) ops taken) ∧
    ∀ taken, History (start config texts loader disk) ops taken → ∀ name e index,
      let l := ((start config texts loader disk).run ops).library
      l.shaders.get? name = some e → e.object.shader.passKind? index = some .gbuffer →
        (∀ models options, ∃ text, e.object.shader.source index models options = .ok text ∧
          DefinesModel text (Source.modelId e.object.shader.definition)) ∧
        (∀ text, e.object.source? index = some text →
          DefinesModel text (Source.modelId e.object.shader.definition)) ∧
        (e.object.shader.Selects (.ofModels l.registry.models) taken ↔
          (e.object.shader.definition.model = none → firstModel? taken 0 = none)) := by
  have sound : ((start config texts loader disk).run ops).Sound :=
    run_sound (start_sound config texts loader disk) ops
  refine ⟨exists_history (start_sound config texts loader disk) ops, ?_⟩
  intro taken history name e index l there gbuffer
  have sorted := sound.library.models_sorted
  have keyed := sound.library.models_keyed
  have distinct := ModelRegistry.nodup_ids sorted keyed
  refine ⟨fun models options => ?_, fun text is => ?_, ?_⟩
  · have generated : e.object.shader.source index models options = .ok _ :=
      Shader.source_eq_ok.2 ⟨_, gbuffer, rfl⟩
    exact ⟨_, generated, Shader.definesModel gbuffer generated⟩
  · obtain ⟨models, generated⟩ := (sound.library.entry there).generated index text is
    exact Shader.definesModel gbuffer generated
  · unfold Shader.Selects
    cases declared : e.object.shader.definition.model with
    | none =>
      dsimp only
      rw [Source.modelId_of_none declared, Dispatch.casesOf_eq_nil_iff distinct,
        ModelRegistry.map_id_models sorted keyed, OrderedMap.mem_keys_iff, forall_prop_of_true rfl,
        ← get?_of_start history]
      exact not_exists.trans Option.eq_none_iff_forall_ne_some.symm
    | some model =>
      refine iff_of_true ?_ nofun
      obtain ⟨first, found⟩ := firstModel?_of_holds history ⟨e, there, rfl⟩ declared
      have id : first.id = model.id := by simpa using List.find?_some found
      have mem : first ∈ l.registry.models :=
        ModelRegistry.mem_models sorted ((get?_of_start history model.id).trans found)
      refine ⟨first, found, id, ?_, Dispatch.evaluates_of_mem distinct mem⟩
      rw [Source.modelId_of_some declared, ← id]
      exact Dispatch.casesOf_of_mem distinct mem

/-- The registered toon shader writes the number of its model, and the number selects it. -/
theorem toon_selects :
    ∃ e taken, History twoShaders [.registerShaders ["Toon", "Screen"]] taken ∧
      (twoShaders.run [.registerShaders ["Toon", "Screen"]]).library.shaders.get? "Toon" = some e ∧
      e.object.shader.passKind? 0 = some .gbuffer ∧
      e.object.shader.definition.model = some ⟨7, "Toon(input)", " return input; "⟩ ∧
      e.object.shader.Selects
        (.ofModels (twoShaders.run [.registerShaders ["Toon", "Screen"]]).library.registry.models)
        taken := by
  obtain ⟨e, there, is⟩ := Option.map_eq_some_iff.1 toon_held
  have gbuffer : e.object.shader.passKind? 0 = some .gbuffer := by rw [is]; rfl
  have model : e.object.shader.definition.model = some ⟨7, "Toon(input)", " return input; "⟩ := by
    rw [is]
    rfl
  obtain ⟨⟨taken, history⟩, selects⟩ := selects_iff .standard twoTexts (.stub [] []) .empty
    [.registerShaders ["Toon", "Screen"]]
  exact ⟨e, taken, history, there, gbuffer, model,
    (selects taken history "Toon" e 0 there gbuffer).2.2.2 (by rw [model]; exact nofun)⟩

/-- A deferred shader that declares no shading model. -/
def plainText : String :=
  "Shader \"Plain\" \x7b RenderQueue \"Deferred\"\n" ++
    "Pass \x7b HLSLPROGRAM\n#pragma vertex pass\n#pragma fragment pass\nENDHLSL \x7d \x7d"

/-- A shader that declares a model of number zero. -/
def flatText : String :=
  "Shader \"Flat\" \x7b\n" ++
    "ShadingModel \x7b shadingmodel = 0; BRDF = Flat(input); BRDF \x7b return input; \x7d \x7d\n" ++
    "Pass \x7b HLSLPROGRAM\n#pragma vertex pass\n#pragma fragment pass\nENDHLSL \x7d \x7d"

/-- The two beside the shared shader. -/
def flatTexts : OrderedMap String String :=
  ((OrderedMap.empty.insert "Screen" screenText).insert "Plain" plainText).insert "Flat" flatText

/-- The two shaders registered. -/
def flatSession : Session :=
  (start .standard flatTexts (.stub [] []) .empty).run [.registerShaders ["Plain", "Flat"]]

/-- The shader that declares no model writes zero, and zero selects the model of the other. -/
theorem zero_selects_declared :
    (∃ e, flatSession.library.shaders.get? "Plain" = some e ∧
      e.object.shader.passKind? 0 = some .gbuffer ∧ e.object.shader.definition.model = none ∧
      Source.modelId e.object.shader.definition = 0 ∧
      (Dispatch.ofModels flatSession.library.registry.models).casesOf 0 = [(0, "Flat(input)")]) ∧
    ¬ ∀ config texts loader disk ops taken, History (start config texts loader disk) ops taken →
      ∀ name e index,
        ((start config texts loader disk).run ops).library.shaders.get? name = some e →
        e.object.shader.passKind? index = some .gbuffer →
          e.object.shader.Selects
            (.ofModels ((start config texts loader disk).run ops).library.registry.models) taken := by
  obtain ⟨held, cases⟩ : (flatSession.library.shaders.get? "Plain").map (fun e =>
      (e.object.shader.passKind? 0, e.object.shader.definition.model)) =
        some (some .gbuffer, none) ∧
      (Dispatch.ofModels flatSession.library.registry.models).casesOf 0 =
        [(0, "Flat(input)")] := by decide +kernel
  obtain ⟨e, there, is⟩ := Option.map_eq_some_iff.1 held
  obtain ⟨gbuffer, model⟩ := Prod.mk.inj is
  have number := Source.modelId_of_none model
  refine ⟨⟨e, there, gbuffer, model, number, cases⟩, fun all => ?_⟩
  obtain ⟨taken, history⟩ := exists_history (start_sound .standard flatTexts (.stub [] []) .empty)
    [.registerShaders ["Plain", "Flat"]]
  have selects := all _ _ _ _ _ taken history "Plain" e 0 there gbuffer
  unfold Shader.Selects at selects
  rw [model, number] at selects
  exact absurd (cases.symm.trans selects) (List.cons_ne_nil _ _)

end Session

end SurfaceShading
