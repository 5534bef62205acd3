/-
  What the dispatch keeps of a list of models, and in which order. Of each number the first model
  counts, and the models that count keep the order in which their numbers first occur
  (`Dispatch.FirstOfEach`). A registry keeps the first model of each number too, in the order of
  the numbers.

  Main statement: the dispatch over any list has one case and one body for each number, those of
  its first model, in the order of first occurrence; models put in behind one of their number
  change nothing; after any calls of a registry the dispatch over its models has the numbers that
  were registered, ascending, each with the first model that was registered under it; and that is
  all that the models have to do with the source of a lighting pass
  (`Dispatch.keeps_first_models`).
-/
import SurfaceShading.Proofs.ModelDispatch
import SurfaceShading.Proofs.ModelRegistry

namespace SurfaceShading

namespace Dispatch

variable {models models' kept before after : List ShadingModel} {model : ShadingModel}

/-- The models that count in a list: of each number the first, in the order in which the numbers
first occur. -/
structure FirstOfEach (models kept : List ShadingModel) : Prop where
  first : ∀ model ∈ kept, models.find? (fun other => other.id == model.id) = some model
  complete : ∀ model ∈ models, ∃ first ∈ kept, first.id = model.id
  inOrder : kept.Pairwise fun a b =>
    models.findIdx (fun other => other.id == a.id) < models.findIdx (fun other => other.id == b.id)

/-- The second list is the first one with more models put in, each anywhere behind a model of its
number. -/
inductive Repeats : List ShadingModel → List ShadingModel → Prop where
  | refl (models : List ShadingModel) : Repeats models models
  | insert {models before after : List ShadingModel} {model : ShadingModel}
      (repeats : Repeats models (before ++ after))
      (earlier : ∃ known ∈ before, known.id = model.id) : Repeats models (before ++ model :: after)

/-- The text of a dispatch over models: the code of each under its number, then the function with
one case for each, then the standard one. -/
def listing (kept : List ShadingModel) : String :=
  String.join (kept.map fun model => bodyText model ++ "\n")
    ++ signature ++ "\n\x7b\n    switch (shadingModel)\n    \x7b\n"
    ++ String.join (kept.map fun model => caseLine (model.id, model.call))
    ++ "    default:\n        return StandardBRDF(input);\n    \x7d\n\x7d\n"

/-- The dispatch consists of the cases of the models and of their code, in step. -/
structure MadeOf (kept : List ShadingModel) (dispatch : Dispatch) : Prop where
  cases : dispatch.cases = kept.map fun model => (model.id, model.call)
  bodies : dispatch.bodies = kept.map bodyText
  emits : ∀ before, before ++ dispatch.text = before ++ listing kept

/-! ## The first of each number -/

theorem FirstOfEach.nil : FirstOfEach [] [] := ⟨nofun, nofun, List.Pairwise.nil⟩

/-- The numbers of the models that count are those of the list. -/
theorem FirstOfEach.exists_iff (firsts : FirstOfEach models kept) {id : UInt32} :
    (∃ model ∈ kept, model.id = id) ↔ ∃ model ∈ models, model.id = id := by
  constructor
  · rintro ⟨model, counts, rfl⟩
    exact ⟨model, List.mem_of_find?_eq_some (firsts.first model counts), rfl⟩
  · rintro ⟨model, listed, rfl⟩
    exact firsts.complete model listed

/-- No two models that count have one number. -/
theorem FirstOfEach.nodup (firsts : FirstOfEach models kept) :
    (kept.map ShadingModel.id).Nodup := by
  refine List.pairwise_map.2 (firsts.inOrder.imp fun {a b} less same => ?_)
  rw [same] at less
  exact Nat.lt_irrefl _ less

/-- The place of a number that occurs does not change with what is appended. -/
theorem findIdx_append_of_mem {id : UInt32} (known : ∃ model ∈ models, model.id = id)
    (later : List ShadingModel) : (models ++ later).findIdx (fun other => other.id == id) =
      models.findIdx fun other => other.id == id := by
  obtain ⟨model, listed, rfl⟩ := known
  have inside := List.findIdx_lt_length_of_exists (p := fun other : ShadingModel =>
    other.id == model.id) ⟨model, listed, beq_self_eq_true _⟩
  rw [List.findIdx_append, if_pos inside]

/-- What counts still counts when models are appended. -/
theorem FirstOfEach.append (firsts : FirstOfEach models kept) (later : List ShadingModel) :
    (∀ model ∈ kept, (models ++ later).find? (fun other => other.id == model.id) = some model) ∧
      kept.Pairwise fun a b => (models ++ later).findIdx (fun other => other.id == a.id) <
        (models ++ later).findIdx fun other => other.id == b.id := by
  have occurs {model : ShadingModel} (counts : model ∈ kept) : ∃ m ∈ models, m.id = model.id :=
    firsts.exists_iff.1 ⟨model, counts, rfl⟩
  constructor
  · intro model counts
    rw [List.find?_append, firsts.first model counts]
    rfl
  · refine firsts.inOrder.imp_of_mem fun {a b} countsA countsB less => ?_
    rwa [findIdx_append_of_mem (occurs countsA), findIdx_append_of_mem (occurs countsB)]

/-- A model whose number occurred does not count. -/
theorem FirstOfEach.known (firsts : FirstOfEach models kept)
    (known : ∃ earlier ∈ models, earlier.id = model.id) :
    FirstOfEach (models ++ [model]) kept := by
  obtain ⟨first, inOrder⟩ := firsts.append [model]
  refine ⟨first, fun other listed => ?_, inOrder⟩
  rcases List.mem_append.1 listed with listed | last
  · exact firsts.complete other listed
  · rw [List.mem_singleton.1 last]
    exact firsts.exists_iff.2 known

/-- A model whose number is new counts, behind all others. -/
theorem FirstOfEach.new (firsts : FirstOfEach models kept)
    (unknown : ¬∃ earlier ∈ models, earlier.id = model.id) :
    FirstOfEach (models ++ [model]) (kept ++ [model]) := by
  have absent : ∀ other ∈ models, ¬(other.id == model.id) = true := fun other listed same =>
    unknown ⟨other, listed, eq_of_beq same⟩
  obtain ⟨first, inOrder⟩ := firsts.append [model]
  refine ⟨fun other counts => ?_, fun other listed => ?_, ?_⟩
  · rcases List.mem_append.1 counts with counts | last
    · exact first other counts
    · rw [List.mem_singleton.1 last, List.find?_append, List.find?_eq_none.2 absent,
        Option.none_or]
      exact List.find?_cons_of_pos (beq_self_eq_true _)
  · rcases List.mem_append.1 listed with listed | last
    · obtain ⟨first, counts, same⟩ := firsts.complete other listed
      exact ⟨first, List.mem_append_left _ counts, same⟩
    · exact ⟨other, List.mem_append_right _ last, rfl⟩
  · -- The numbers that occurred stand within the old list, and the new one behind it.
    have last : (models ++ [model]).findIdx (fun other => other.id == model.id) =
        models.length := by
      rw [List.findIdx_append, List.findIdx_eq_length_of_false (by simpa using absent),
        if_neg (Nat.lt_irrefl _), List.findIdx_cons, beq_self_eq_true, cond_true, Nat.zero_add]
    refine List.pairwise_append.2 ⟨inOrder, List.pairwise_singleton .., fun a counts b mem => ?_⟩
    obtain rfl := List.mem_singleton.1 mem
    have occurs : ∃ other ∈ models, other.id = a.id := firsts.exists_iff.1 ⟨a, counts, rfl⟩
    obtain ⟨other, listed, same⟩ := occurs
    rw [last, findIdx_append_of_mem ⟨other, listed, same⟩]
    exact List.findIdx_lt_length_of_exists ⟨other, listed, by simpa using same⟩

/-! ## The dispatch over a list -/

theorem ofModels_append (models later : List ShadingModel) :
    ofModels (models ++ later) = later.foldl add (ofModels models) := List.foldl_append

theorem add_known {dispatch : Dispatch} (known : ∃ c ∈ dispatch.cases, c.1 = model.id) :
    dispatch.add model = dispatch := by
  obtain ⟨c, mem, same⟩ := known
  exact if_pos (List.any_eq_true.2 ⟨c, mem, by simpa using same⟩)

theorem add_new {dispatch : Dispatch} (unknown : ¬∃ c ∈ dispatch.cases, c.1 = model.id) :
    dispatch.add model =
      ⟨dispatch.bodies ++ [bodyText model], dispatch.cases ++ [(model.id, model.call)]⟩ := by
  refine if_neg fun known => unknown ?_
  obtain ⟨c, mem, same⟩ := List.any_eq_true.1 known
  exact ⟨c, mem, eq_of_beq same⟩

/-- The dispatch over a list is made of the models that count. -/
theorem exists_firstOfEach (models : List ShadingModel) : ∃ kept, FirstOfEach models kept ∧
    ofModels models = ⟨kept.map bodyText, kept.map fun model => (model.id, model.call)⟩ := by
  induction models using List.reverseRecOn with
  | nil => exact ⟨[], .nil, rfl⟩
  | append_singleton models model ih =>
    obtain ⟨kept, firsts, eq⟩ := ih
    have occurs : (∃ c ∈ (ofModels models).cases, c.1 = model.id) ↔
        ∃ earlier ∈ models, earlier.id = model.id := by
      rw [eq, ← firsts.exists_iff]
      simp
    have added : ofModels (models ++ [model]) = (ofModels models).add model :=
      ofModels_append models [model]
    by_cases known : ∃ earlier ∈ models, earlier.id = model.id
    · exact ⟨kept, firsts.known known, by rw [added, add_known (occurs.2 known), eq]⟩
    · refine ⟨kept ++ [model], firsts.new known, ?_⟩
      rw [added, add_new (occurs.not.2 known), eq, List.map_append, List.map_append]
      rfl

/-- Models of numbers that occurred before them change nothing. -/
theorem Repeats.ofModels_eq (repeats : Repeats models models') :
    ofModels models' = ofModels models := by
  induction repeats with
  | refl => rfl
  | @insert before after model _ earlier ih =>
    obtain ⟨kept, firsts, eq⟩ := exists_firstOfEach before
    have known : ∃ c ∈ (ofModels before).cases, c.1 = model.id := by
      obtain ⟨first, counts, same⟩ := firsts.exists_iff.2 earlier
      rw [eq]
      exact ⟨_, List.mem_map_of_mem counts, same⟩
    rw [ofModels_append, List.foldl_cons, add_known known, ← ofModels_append]
    exact ih

/-- The source of a lighting pass has what the dispatch over the models lists, behind and in front
of what no model has a part in. -/
theorem generate_lighting (definition : Definition) (index : Nat) (parameters : List Parameter)
    (options : SourceOptions) : ∃ before after, ∀ models kept, MadeOf kept (ofModels models) →
      Source.generate definition index .lighting parameters models options =
        before ++ listing kept ++ after := by
  obtain ⟨above, after, placed⟩ : ∃ above after, ∀ models,
      Source.generate definition index .lighting parameters models options =
        above ++ Source.passInputs definition .lighting models ++ after := by
    unfold Source.generate
    exact ⟨_, _, fun _ => rfl⟩
  obtain ⟨shared, inputs⟩ : ∃ shared, ∀ models,
      Source.passInputs definition .lighting models = shared ++ (ofModels models).text :=
    ⟨_, fun _ => rfl⟩
  refine ⟨above ++ shared, after, fun models kept made => ?_⟩
  rw [placed, inputs, ← String.append_assoc, made.emits]

theorem madeOf_mk (kept : List ShadingModel) :
    MadeOf kept ⟨kept.map bodyText, kept.map fun model => (model.id, model.call)⟩ := by
  refine ⟨rfl, rfl, fun before => ?_⟩
  rw [text, listing, List.map_map, List.map_map]
  rfl

end Dispatch

namespace ModelRegistry

variable {r : ModelRegistry}

/-- The model of a registration that is not refused. -/
def taken (r : ModelRegistry) (c : Call) : List ShadingModel :=
  match c, (r.perform c).1 with
  | .register model, .ok _ => [model]
  | _, _ => []

/-- The models of all registrations that are not refused, in the order of the calls. -/
def registered (r : ModelRegistry) : List Call → List ShadingModel
  | [] => []
  | c :: calls => r.taken c ++ (r.perform c).2.registered calls

/-! ## The models of a registry -/

/-- The models stand in ascending order of the numbers that they are registered under. -/
structure Orderly (r : ModelRegistry) : Prop where
  sorted : r.entries.Sorted
  keyed : r.Keyed

theorem orderly_new : new.Orderly := ⟨OrderedMap.sorted_empty, nofun⟩

theorem Effect.orderly {r' : ModelRegistry} {c : Call} (effect : Effect r c r')
    (orderly : r.Orderly) : r'.Orderly := by
  cases effect with
  | @added model admitted unknown =>
    refine ⟨orderly.sorted.insert _ _, fun id other is => ?_⟩
    replace is : (r.entries.insert model.id model).get? id = some other := is
    rw [OrderedMap.get?_insert] at is
    split at is
    · next same => cases is; exact same.symm
    · exact orderly.keyed id other is
  | none | opened | closed | begun | finished | aborted => exact ⟨orderly.sorted, orderly.keyed⟩

theorem run_orderly (orderly : r.Orderly) (calls : List Call) : (r.run calls).Orderly := by
  induction calls generalizing r with
  | nil => exact orderly
  | cons c calls ih => exact ih ((effect_perform r c).orderly orderly)

/-- A call that is no registration leaves the models as they are. -/
theorem Effect.entries_of_quiet {r' : ModelRegistry} {c : Call} (effect : Effect r c r')
    (quiet : ∀ model, c ≠ .register model) : r'.entries = r.entries := by
  cases effect with
  | added => exact absurd rfl (quiet _)
  | none | opened | closed | begun | finished | aborted => rfl

/-- After a call a number has the model that it had, or else the one that the call registers
under it. -/
theorem get?_perform (r : ModelRegistry) (c : Call) (id : UInt32) :
    (r.perform c).2.get? id =
      (r.get? id).or ((r.taken c).find? fun model => model.id == id) := by
  have quiet (other : ∀ model, c ≠ .register model) (none : r.taken c = []) :
      (r.perform c).2.get? id =
        (r.get? id).or ((r.taken c).find? fun model => model.id == id) := by
    rw [none, List.find?_nil, Option.or_none, ModelRegistry.get?,
      (effect_perform r c).entries_of_quiet other]
    rfl
  cases c with
  | register model =>
    have one : [model].find? (fun model => model.id == id) =
        if id = model.id then some model else none := by
      by_cases same : id = model.id <;> simp [same, Ne.symm]
    unfold taken
    rw [perform_register]
    by_cases regenerating : r.state = .regenerating
    · rw [if_pos regenerating]
      exact Option.or_none.symm
    · rw [if_neg regenerating]
      cases known : r.get? model.id with
      | some first =>
        show r.get? id = (r.get? id).or ([model].find? fun model => model.id == id)
        rw [one]
        split
        · next same => rw [same, known]; rfl
        · exact Option.or_none.symm
      | none =>
        show (r.entries.insert model.id model).get? id =
          (r.get? id).or ([model].find? fun model => model.id == id)
        rw [one, OrderedMap.get?_insert]
        split
        · next same => rw [same, known]; rfl
        · exact Option.or_none.symm
  | _ => exact quiet (fun _ is => by cases is) rfl

/-- After calls a number has the model that it had, or else the first that is registered under
it. -/
theorem get?_run (r : ModelRegistry) (calls : List Call) (id : UInt32) :
    (r.run calls).get? id =
      (r.get? id).or ((r.registered calls).find? fun model => model.id == id) := by
  induction calls generalizing r with
  | nil => exact Option.or_none.symm
  | cons c calls ih =>
    rw [registered, List.find?_append, ← Option.or_assoc, ← get?_perform]
    exact ih (r.perform c).2

/-- What the models of a registry are after calls: the first of each number that was registered,
in ascending order of the numbers. -/
structure FirstRegistered (calls : List Call) (models : List ShadingModel) : Prop where
  ascending : models.Pairwise fun a b => a.id < b.id
  first : ∀ model, model ∈ models ↔
    (new.registered calls).find? (fun other => other.id == model.id) = some model
  complete : ∀ model ∈ new.registered calls, ∃ first ∈ models, first.id = model.id

theorem models_firstRegistered (calls : List Call) :
    FirstRegistered calls (new.run calls).models := by
  obtain ⟨sorted, keyed⟩ := run_orderly orderly_new calls
  have get? (id : UInt32) : (new.run calls).get? id =
      (new.registered calls).find? fun model => model.id == id := get?_run new calls id
  have first (model : ShadingModel) : model ∈ (new.run calls).models ↔
      (new.registered calls).find? (fun other => other.id == model.id) = some model := by
    rw [← get?]
    constructor
    · intro mem
      obtain ⟨⟨id, _⟩, entry, rfl⟩ := List.mem_map.1 mem
      have is := sorted.get?_eq_some_iff.2 entry
      rw [keyed id _ is]
      exact is
    · exact mem_models sorted
  refine ⟨?_, first, fun model mem => ?_⟩
  · refine List.pairwise_map.1 ?_
    rw [map_id_models sorted keyed]
    exact List.pairwise_map.2 sorted
  · obtain ⟨known, found⟩ : ∃ known, (new.registered calls).find?
        (fun other => other.id == model.id) = some known := by
      exact Option.isSome_iff_exists.1 (List.find?_isSome.2 ⟨model, mem, beq_self_eq_true _⟩)
    have same : known.id = model.id := by simpa using List.find?_some found
    exact ⟨known, (first known).2 (by rw [same]; exact found), same⟩

end ModelRegistry

/-- **The dispatch keeps the first model of each number.** The dispatch over a list has the case
and the code of the first model of each number, in the order in which the numbers first occur;
models put in behind one of their number change nothing; over the models of a registry, after any
calls, it has each number that was registered once, ascending, with the first model that was
registered under it; and of the source of a lighting pass the models make just what the dispatch
over them lists. -/
theorem Dispatch.keeps_first_models :
    (∀ models, ∃ kept, FirstOfEach models kept ∧ (kept.map ShadingModel.id).Nodup ∧
      MadeOf kept (ofModels models)) ∧
    (∀ models models', Repeats models models' → ofModels models' = ofModels models) ∧
    (∀ calls, ∃ kept, ModelRegistry.FirstRegistered calls kept ∧
      MadeOf kept (ofModels (ModelRegistry.new.run calls).models)) ∧
    ∀ definition index parameters options, ∃ before after, ∀ models kept,
      MadeOf kept (ofModels models) →
        Source.generate definition index .lighting parameters models options =
          before ++ listing kept ++ after := by
  refine ⟨fun models => ?_, fun _ _ => Repeats.ofModels_eq, fun calls => ?_, generate_lighting⟩
  · obtain ⟨kept, firsts, eq⟩ := exists_firstOfEach models
    exact ⟨kept, firsts, firsts.nodup, eq ▸ madeOf_mk kept⟩
  · obtain ⟨sorted, keyed⟩ := ModelRegistry.run_orderly ModelRegistry.orderly_new calls
    refine ⟨_, ModelRegistry.models_firstRegistered calls, ?_⟩
    rw [ofModels_eq (ModelRegistry.nodup_ids sorted keyed)]
    exact madeOf_mk _

end SurfaceShading
