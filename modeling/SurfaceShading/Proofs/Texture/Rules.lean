/-
  Rules for the work of a table of textures. The default textures are made slot by slot, and a
  step concerns its own slot alone; so what is said of the loop needs an invariant for the number
  of slots that are done, and nothing about those to come (`TextureTable.ensureDefaults_rule`). A
  path is answered from its entry, with the default slot, or with a slot taken for it
  (`TextureTable.acquire_rule`).
-/
import SurfaceShading.Proofs.Outcome
import SurfaceShading.Texture.Table

namespace SurfaceShading.TextureTable

variable {table : TextureTable} {h : Host}

/-! ## Default textures -/

section Defaults

variable {post : Except Error Unit → TextureTable → Host → Prop}

/-- The table with the texture of a default slot. -/
def stocking (table : TextureTable) (i : Nat) (slot : DefaultSlot) (texture : Handle) :
    TextureTable :=
  { table.writeView slot.index texture slot.dimension with
    defaults := table.defaults.set i { slot with texture := some texture } }

/-- The rule for a default slot: it has its texture, or this is made, unless the device
refuses. -/
theorem ensureDefault_rule {i : Nat} {slot : DefaultSlot}
    (there : slot.texture.isSome = true → post (.ok ()) table h)
    (missing : slot.texture = none → HostM.Ends (TextureData.white slot.dimension).create h fun
      | .ok texture, h' => post (.ok ()) (table.stocking i slot texture) h'
      | .error e, h' => post (.error (.device e)) table h') :
    Attempt.Ends (ensureDefault i slot) table h post := by
  unfold ensureDefault
  cases none : slot.texture with
  | some texture => exact there (by rw [none]; rfl)
  | none =>
    simp only [Option.isNone_none, if_true, Attempt.ends_bind, Attempt.ends_ofDevice]
    refine (missing none).mono fun r h' ended => ?_
    cases r with
    | ok _ => exact ended
    | error _ => exact ended

/-- The rule for all default slots: `P` counts those that are done. -/
theorem ensureDefaults_rule {P : Nat → TextureTable → Host → Prop} (start : P 0 table h)
    (there : ∀ i slot t h, t.defaults[i]? = some slot → slot.texture.isSome = true →
      P i t h → P (i + 1) t h)
    (missing : ∀ i slot t h, t.defaults[i]? = some slot → slot.texture = none → P i t h →
      HostM.Ends (TextureData.white slot.dimension).create h fun
        | .ok texture, h' => P (i + 1) (t.stocking i slot texture) h'
        | .error e, h' => post (.error (.device e)) t h')
    (finish : ∀ t h, P t.defaults.length t h → post (.ok ()) t h) :
    Attempt.Ends ensureDefaults table h post := by
  -- The loop runs over slots that it read before, so they have to be those of the table still.
  have loop (slots : List DefaultSlot) (i : Nat) (t : TextureTable) (h : Host)
      (are : t.defaults.drop i = slots) (le : i ≤ t.defaults.length) (held : P i t h) :
      Attempt.Ends (ensureFrom i slots) t h post := by
    induction slots generalizing i t h with
    | nil =>
      obtain rfl : i = t.defaults.length := Nat.le_antisymm le (List.drop_eq_nil_iff.1 are)
      exact finish t h held
    | cons slot rest ih =>
      have is : t.defaults[i]? = some slot := by
        rw [← List.head?_drop, are]
        rfl
      have after : t.defaults.drop (i + 1) = rest := by
        rw [← List.tail_drop, are]
        rfl
      obtain ⟨lt, _⟩ := List.getElem?_eq_some_iff.1 is
      unfold ensureFrom
      rw [Attempt.ends_bind]
      refine ensureDefault_rule (fun some => ?_) fun none => ?_
      · exact ih (i + 1) t h after lt (there i slot t h is some held)
      · refine (missing i slot t h is none held).mono fun r h' ended => ?_
        cases r with
        | error _ => exact ended
        | ok texture =>
          refine ih (i + 1) _ h' ?_ ?_ ended
          · exact (List.drop_set_of_lt (Nat.lt_succ_self i)).trans after
          · exact Nat.le_trans lt (Nat.le_of_eq List.length_set.symm)
  unfold ensureDefaults
  rw [Attempt.ends_bind, Attempt.ends_get, Attempt.after_ok]
  exact loop _ 0 table h List.drop_zero (Nat.zero_le _) start

/-- If nothing is refused every default slot has its texture afterwards. -/
theorem ensureDefaults_makes (table : TextureTable) (h : Host) :
    Attempt.Ends ensureDefaults table h fun r table' _ => r = .ok () →
      ∀ d ∈ table'.defaults, d.texture.isSome = true := by
  let P (i : Nat) (t : TextureTable) (_ : Host) : Prop :=
    ∀ j < i, ∀ d, t.defaults[j]? = some d → d.texture.isSome = true
  refine ensureDefaults_rule (P := P) (fun _ lt => absurd lt (Nat.not_lt_zero _)) ?_ ?_ ?_
  · intro i slot t h is some held j lt d is'
    rcases Nat.lt_succ_iff_lt_or_eq.1 lt with less | rfl
    · exact held j less d is'
    · cases is.symm.trans is'
      exact some
  · intro i slot t h is none held
    refine .of_forall fun r h' => ?_
    cases r with
    | error e => exact fun failed => by cases failed
    | ok texture =>
      intro j lt d is'
      obtain ⟨here, _⟩ := List.getElem?_eq_some_iff.1 is
      rcases Nat.lt_succ_iff_lt_or_eq.1 lt with less | rfl
      · exact held j less d ((List.getElem?_set_ne (Nat.ne_of_gt less)).symm.trans is')
      · cases (List.getElem?_set_self here).symm.trans is'
        rfl
  · intro t h held _ d mem
    obtain ⟨j, lt, is⟩ := List.mem_iff_getElem.1 mem
    exact held j lt d (List.getElem?_eq_some_iff.2 ⟨lt, is⟩)

/-- Where all default textures are there, nothing is done. -/
theorem ensureDefaults_idle (made : ∀ d ∈ table.defaults, d.texture.isSome = true) :
    Attempt.Ends ensureDefaults table h fun r table' h' =>
      r = .ok () ∧ table' = table ∧ h' = h := by
  refine ensureDefaults_rule (P := fun _ t h' => t = table ∧ h' = h) ⟨rfl, rfl⟩ ?_ ?_ ?_
  · exact fun _ _ _ _ _ _ held => held
  · rintro i slot _ _ is none ⟨rfl, rfl⟩
    have some := made slot (List.mem_of_getElem? is)
    rw [none] at some
    cases some
  · exact fun _ _ held => ⟨rfl, held⟩

end Defaults

/-! ## Paths -/

/-- The rule for a path: it has its index, or no slot is free, or one is taken and filled. -/
theorem acquire_rule {path : String} {dimension : TextureDimension}
    {post : Nat → TextureTable → Host → Prop}
    (known : ∀ index, table.indexOf? path dimension = some index → post index table h)
    (full : table.indexOf? path dimension = none → table.slots.allocate = none →
      post (defaultIndex dimension) table
        { h with events := h.events ++ [.tableFull table.slots.capacity path] })
    (taken : ∀ index slots, table.indexOf? path dimension = none →
      table.slots.allocate = some (index, slots) → HostM.Ends (Loader.load path dimension) h fun
        | .ok texture, h' => post (slots.distance index)
          { table.writeView index texture dimension with
            slots := slots
            entries := table.entries.insert (.of path dimension) ⟨index, texture⟩ }
          { h' with
            events := h'.events ++ [.textureBound path dimension (slots.distance index)] }
        | .error e, h' => Work.Ends (free index) { table with slots := slots } h'
          fun _ table' h'' => post (defaultIndex dimension) table'
            { h'' with events := h''.events ++ [.textureNotLoaded path e] }) :
    Work.Ends (acquire path dimension) table h post := by
  unfold acquire
  rw [Work.ends_bind, Work.ends_get]
  split
  · next index is => exact known index is
  · next absent =>
    split
    · next none => exact full absent none
    · next index slots took =>
      rw [Work.ends_bind, Work.ends_set, fill, Work.ends_bind, Work.ends_lift]
      refine (taken index slots absent took).mono fun r h' ended => ?_
      cases r with
      | error e =>
        rw [Work.ends_bind]
        exact ended
      | ok texture => exact ended

end SurfaceShading.TextureTable
