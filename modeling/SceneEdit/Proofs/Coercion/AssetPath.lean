import Mathlib.Data.List.Basic
import Mathlib.Data.List.Infix
import Mathlib.Data.List.TakeWhile
import SceneEdit.Coercion.Basic
import SceneEdit.Proofs.Log
import SceneEdit.Proofs.Text
import SceneEdit.Value.Token

/-!
# Writing the path of an asset

The token of an asset is its path as it was registered, but a path that is written is brought into
a normal form before it is looked up. The two are the same exactly for paths that are normal
(`normalizePath_eq_self_iff`), and such an asset is found again. The normal form of any other path
may be that of no asset, of another one, or blank, and then the slot is emptied or gets the other
asset; the asset itself is found only if nothing is registered there and the normal form happens to
be its name and nobody else's (`own_path_kept_iff`).
-/

namespace SceneEdit

/-! ### Normal paths -/

namespace Coercion

/-- A path with no blanks at either end, no backslash, and no scheme or slash before it. -/
structure IsNormal (path : String) : Prop where
  unblank : Text.trim path = path
  slashes : '\\' ∉ path.toList
  bare : ¬ "file://".toList <+: path.toList
  relative : path.toList.head? ≠ some '/'

/-- What is no longer without its front than a text is the text, and nothing was in front. -/
theorem eq_of_front_dropped {scheme text cs : List Char} (given : scheme ≠ [])
    (short : text.length ≤ cs.length)
    (kept : (if scheme.isPrefixOf text then text.drop scheme.length else text).dropWhile
      (· = '/') = cs) :
    text = cs ∧ ¬ scheme <+: cs ∧ cs.head? ≠ some '/' := by
  split at kept
  · rename_i front
    have fits := (List.isPrefixOf_iff_prefix.mp front).length_le
    have less := (List.dropWhile_suffix (l := text.drop scheme.length) (· = '/')).length_le
    have positive := List.length_pos_iff.mpr given
    rw [kept, List.length_drop] at less
    omega
  · rename_i front
    have rest : cs <:+ text := kept ▸ List.dropWhile_suffix _
    obtain rfl : cs = text := rest.sublist.eq_of_length_le short
    refine ⟨rfl, fun before => front (List.isPrefixOf_iff_prefix.mpr before), fun slash => ?_⟩
    obtain ⟨more, rfl⟩ := List.head?_eq_some_iff.mp slash
    exact List.dropWhile_eq_self_iff.mp kept (Nat.succ_pos _) rfl

/-- The paths that are looked up as they are written. -/
theorem normalizePath_eq_self_iff {path : String} : normalizePath path = path ↔ IsNormal path := by
  have trimmed : Text.trim path = path ↔ Text.trimmed path.toList = path.toList := by
    rw [← String.toList_inj, Text.trim, String.toList_ofList]
  rw [← String.toList_inj, normalizePath, String.toList_ofList]
  constructor
  · intro kept
    -- No step makes the text longer, so none of them has changed it.
    have inside : Text.trimmed path.toList <:+: path.toList := Text.strip_infix _ _
    have long : (Text.forwardSlashes (Text.trimmed path.toList)).length =
      (Text.trimmed path.toList).length := List.length_map _
    obtain ⟨same, bare, relative⟩ :=
      eq_of_front_dropped (by decide) (long.trans_le inside.length_le) kept
    have unblank : Text.trimmed path.toList = path.toList :=
      inside.eq_of_length (long.symm.trans (congrArg List.length same))
    rw [unblank] at same
    exact ⟨trimmed.mpr unblank, Text.forwardSlashes_eq_self_iff.mp same, bare, relative⟩
  · rintro ⟨unblank, slashes, bare, relative⟩
    rw [trimmed.mp unblank, Text.forwardSlashes_eq_self_iff.mpr slashes,
      if_neg (by rwa [List.isPrefixOf_iff_prefix])]
    refine List.dropWhile_eq_self_iff.mpr fun given first => relative ?_
    rw [List.head?_eq_getElem?, List.getElem?_eq_getElem given, of_decide_eq_true first]

end Coercion

/-! ### Looking assets up -/

namespace Library

variable {library : Library} {type : TypeName} {path : String} {handle : Resource}

/-- The asset that a path leads to: the first one registered at it, else the only one it names. -/
def reached? (library : Library) (type : TypeName) (path : String) : Option Resource :=
  match library.load? path type with
  | some handle => some handle
  | none =>
    match if path.toList.contains '/' then [] else library.named type path with
    | [handle] => some handle
    | _ => none

theorem mem_of_load? (loaded : library.load? path type = some handle) :
    handle ∈ library.resources ∧ handle.path = path ∧ handle.typeName = type := by
  have found := List.find?_some loaded
  simp only [Bool.and_eq_true, decide_eq_true_eq] at found
  exact ⟨List.mem_of_find?_eq_some loaded, found⟩

theorem mem_named_iff : handle ∈ library.named type path ↔
    handle ∈ library.resources ∧ handle.typeName = type ∧ handle.name = path := by
  rw [named, List.mem_filter, Bool.and_eq_true, decide_eq_true_eq, decide_eq_true_eq]

theorem load?_eq_none_iff : library.load? path type = none ↔
    ∀ other ∈ library.resources, other.typeName = type → other.path ≠ path := by
  rw [load?, List.find?_eq_none]
  simp only [Bool.and_eq_true, decide_eq_true_eq, not_and]
  exact forall₂_congr fun _ _ => ⟨fun h same at' => h at' same, fun h at' same => h same at'⟩

theorem reached?_eq_some_iff : library.reached? type path = some handle ↔
    library.load? path type = some handle ∨
      library.load? path type = none ∧ '/' ∉ path.toList ∧ library.named type path = [handle] := by
  rw [reached?]
  cases library.load? path type with
  | some first => simp
  | none =>
      by_cases slash : '/' ∈ path.toList
      · simp [slash]
      · rcases library.named type path with _ | ⟨only, _ | ⟨second, more⟩⟩ <;> simp [slash]

theorem reached?_eq_none_iff : library.reached? type path = none ↔
    library.load? path type = none ∧
      ('/' ∈ path.toList ∨ (library.named type path).length ≠ 1) := by
  rw [reached?]
  cases library.load? path type with
  | some first => simp
  | none =>
      by_cases slash : '/' ∈ path.toList
      · simp [slash]
      · rcases library.named type path with _ | ⟨only, _ | ⟨second, more⟩⟩ <;> simp [slash]

theorem mem_of_reached? (reached : library.reached? type path = some handle) :
    handle ∈ library.resources ∧ handle.typeName = type ∧
      (handle.path = path ∨ handle.name = path) := by
  rcases reached?_eq_some_iff.mp reached with loaded | ⟨-, -, alone⟩
  · obtain ⟨inside, at', same⟩ := mem_of_load? loaded
    exact ⟨inside, same, Or.inl at'⟩
  · obtain ⟨inside, same, called⟩ := mem_named_iff.mp (alone ▸ List.mem_singleton_self handle)
    exact ⟨inside, same, Or.inr called⟩

/-- An asset with none of its path and type before it is the one at its path. -/
theorem load?_own {before after : List Resource}
    (registered : library.resources = before ++ handle :: after)
    (first : ∀ earlier ∈ before, earlier.path = handle.path →
      earlier.typeName ≠ handle.typeName) :
    library.load? handle.path handle.typeName = some handle := by
  rw [load?, registered]
  refine List.find?_eq_some_iff_append.mpr ⟨by simp, before, after, rfl, fun earlier inside => ?_⟩
  simpa [imp_iff_not_or] using first earlier inside

/-- An asset is the only one that a name stands for if it has the name and no other asset of its
type has it. -/
theorem named_eq_singleton_iff {before after : List Resource}
    (registered : library.resources = before ++ handle :: after) :
    library.named handle.typeName path = [handle] ↔ handle.name = path ∧
      ∀ other ∈ before ++ after, other.typeName = handle.typeName → other.name ≠ path := by
  have others (called : handle.name = path) : library.named handle.typeName path = [handle] ↔
      ∀ other ∈ before ++ after, other.typeName = handle.typeName → other.name ≠ path := by
    rw [named, registered, List.filter_append, List.filter_cons_of_pos (by simp [called])]
    simp [List.append_eq_singleton_iff, or_imp, forall_and]
  constructor
  · intro alone
    obtain ⟨-, -, called⟩ := mem_named_iff.mp (alone ▸ List.mem_singleton_self handle)
    exact ⟨called, (others called).mp alone⟩
  · rintro ⟨called, none⟩
    exact (others called).mpr none

/-- An asset with none of its path and type before it is reached by its own path, and by another
one that nothing is registered at if it is the only one that it names. -/
theorem reached?_own_iff {before after : List Resource}
    (registered : library.resources = before ++ handle :: after)
    (first : ∀ earlier ∈ before, earlier.path = handle.path →
      earlier.typeName ≠ handle.typeName) :
    library.reached? handle.typeName path = some handle ↔ path = handle.path ∨
      '/' ∉ path.toList ∧ handle.name = path ∧
        ∀ other ∈ before ++ after, other.typeName = handle.typeName →
          other.path ≠ path ∧ other.name ≠ path := by
  rw [reached?_eq_some_iff, named_eq_singleton_iff registered, load?_eq_none_iff]
  constructor
  · rintro (loaded | ⟨free, bare, called, alone⟩)
    · exact Or.inl (mem_of_load? loaded).2.1.symm
    · refine Or.inr ⟨bare, called, fun other inside same => ⟨?_, alone other inside same⟩⟩
      refine free other ?_ same
      rw [registered]
      exact List.mem_append.mpr ((List.mem_append.mp inside).imp_right (List.mem_cons_of_mem _))
  · rintro (rfl | ⟨bare, called, alone⟩)
    · exact Or.inl (load?_own registered first)
    · by_cases own : path = handle.path
      · exact Or.inl (own ▸ load?_own registered first)
      · refine Or.inr ⟨fun other inside same => ?_, bare, called,
          fun other inside same => (alone other inside same).2⟩
        rw [registered, List.mem_append, List.mem_cons, or_left_comm] at inside
        rcases inside with rfl | inside
        · exact Ne.symm own
        · exact (alone other (List.mem_append.mpr inside) same).1

end Library

namespace Coercion

variable {env : Environment}

theorem result_findAsset (library : Library) (field path : String) (type : TypeName) :
    (findAsset library field path type).result =
      .ok (((library.reached? type path).map Value.resource).getD .null) := by
  rw [findAsset, Library.reached?]
  cases library.load? path type with
  | some handle => rfl
  | none =>
      dsimp only
      rcases (if path.toList.contains '/' then [] else library.named type path)
        with _ | ⟨only, _ | ⟨second, more⟩⟩ <;> rfl

theorem result_toResource (library : Library) (field path : String) (type : TypeName) :
    (toResource library field (.str path) type).result =
      .ok (((if normalizePath path = "" then none
        else library.reached? type (normalizePath path)).map Value.resource).getD .null) := by
  rw [toResource, assetPath]
  dsimp only
  by_cases blank : normalizePath path = ""
  · rw [if_pos blank, if_pos blank]
    rfl
  · rw [if_neg blank, if_neg blank, result_findAsset]

/-- What a path is converted to is the asset that its normal form leads to. -/
theorem coerce_path (env : Environment) (field path : String) (type : TypeName)
    (current : Option Value) :
    (coerce env field (.str path) (.resource type) current).result =
      .ok (((if normalizePath path = "" then none
        else env.library.reached? type (normalizePath path)).map Value.resource).getD .null) := by
  have filled : ¬ (Token.str path).isNull = true := Bool.false_ne_true
  rw [coerce, if_neg filled, result_toResource]

/-- Writing the path of an asset never fails. It keeps the asset exactly if the path is normal, or
if its normal form leads to no asset otherwise and names this one only; it leaves nothing exactly if
the normal form is blank or leads to no asset; and in all other cases it gives an asset of the type
that is registered at the normal form or has it as its name. -/
theorem own_path_kept_iff (env : Environment) (field : String) (handle : Resource) (hidden : Bool)
    (current : Option Value) {before after : List Resource}
    (registered : env.library.resources = before ++ handle :: after)
    (first : ∀ earlier ∈ before, earlier.path = handle.path →
      earlier.typeName ≠ handle.typeName) :
    let path := normalizePath handle.path
    ∃ value, (coerce env field ((Value.resource handle).toToken hidden)
        (.resource handle.typeName) current).result = .ok value ∧
      (value = .resource handle ↔ path ≠ "" ∧ (IsNormal handle.path ∨
        '/' ∉ path.toList ∧ handle.name = path ∧
          ∀ other ∈ before ++ after, other.typeName = handle.typeName →
            other.path ≠ path ∧ other.name ≠ path)) ∧
      (value = .null ↔ path = "" ∨
        (∀ other ∈ env.library.resources, other.typeName = handle.typeName →
          other.path ≠ path) ∧
        ('/' ∈ path.toList ∨ (env.library.named handle.typeName path).length ≠ 1)) ∧
      (value = .null ∨ ∃ other ∈ env.library.resources, value = .resource other ∧
        other.typeName = handle.typeName ∧ (other.path = path ∨ other.name = path)) := by
  intro path
  refine ⟨_, coerce_path env field handle.path handle.typeName current, ?_⟩
  by_cases blank : path = ""
  · rw [if_pos blank]
    simp [blank]
  · rw [if_neg blank]
    have own : env.library.reached? handle.typeName path = some handle ↔ _ :=
      Library.reached?_own_iff registered first
    have nothing : env.library.reached? handle.typeName path = none ↔ _ :=
      Library.reached?_eq_none_iff
    rw [normalizePath_eq_self_iff] at own
    rw [Library.load?_eq_none_iff] at nothing
    cases reached : env.library.reached? handle.typeName path with
    | none =>
        rw [reached] at own nothing
        exact ⟨iff_of_false nofun fun kept => (by cases own.mpr kept.2),
          iff_of_true rfl (Or.inr (nothing.mp rfl)), Or.inl rfl⟩
    | some other =>
        obtain ⟨inside, same, found⟩ := Library.mem_of_reached? reached
        rw [reached] at own nothing
        refine ⟨?_, iff_of_false nofun ?_, Or.inr ⟨other, inside, rfl, same, found⟩⟩
        · rw [and_iff_right blank, ← own]
          exact ⟨fun kept => congrArg some (Value.resource.inj kept),
            fun kept => congrArg Value.resource (Option.some.inj kept)⟩
        · rintro (empty | left)
          · exact blank empty
          · cases nothing.mpr left

/-! ### Paints -/

def paintAt (path : String) : Resource := .ofPath path ⟨"Material"⟩

/-- What writing the path of an asset gives where some assets are registered. -/
def ownPathWritten (resources : List Resource) (handle : Resource) : Except Report Value :=
  (coerce { library := ⟨resources⟩ } "f" ((Value.resource handle).toToken true)
    (.resource handle.typeName) none).result

theorem ownPathWritten_eq {resources : List Resource} {handle : Resource}
    (asset : Option Resource)
    (leads : (if normalizePath handle.path = "" then none
      else Library.reached? ⟨resources⟩ handle.typeName (normalizePath handle.path)) = asset) :
    ownPathWritten resources handle = .ok ((asset.map Value.resource).getD .null) :=
  leads ▸ coerce_path ..

/-- A paint at a normal path is kept, and so is one whose normal path is its own name only. -/
theorem own_path_kept_iff_of_paints :
    let red := paintAt "Paints/Red.mat"
    let blue := paintAt "/Blue"
    ownPathWritten [blue, red] red = .ok (.resource red) ∧
      ownPathWritten [blue, red] blue = .ok (.resource blue) := by
  intro red blue
  let env : Environment := { library := ⟨[blue, red]⟩ }
  constructor
  · have registered : env.library.resources = [blue] ++ red :: [] := rfl
    obtain ⟨_, given, kept, -⟩ :=
      own_path_kept_iff env "f" red true none registered (by decide +kernel)
    have normal : IsNormal red.path := normalizePath_eq_self_iff.mp (by decide +kernel)
    exact kept.mpr ⟨by decide +kernel, Or.inl normal⟩ ▸ given
  · have registered : env.library.resources = [] ++ blue :: [red] := rfl
    obtain ⟨_, given, kept, -⟩ :=
      own_path_kept_iff env "f" blue true none registered (by decide +kernel)
    exact kept.mpr ⟨by decide +kernel, Or.inr (by decide +kernel)⟩ ▸ given

/-- Writing the path of a paint empties the slot if its normal form is the path of no paint, and
puts another paint into it if it is the path of that one. -/
theorem own_path_not_kept :
    let red := paintAt "/Paints/Red.mat"
    let other := paintAt "Paints/Red.mat"
    ownPathWritten [red] red = .ok .null ∧
      ownPathWritten [red, other] red = .ok (.resource other) ∧
      ¬ ∀ (before after : List Resource) (handle : Resource),
        (∀ earlier ∈ before, earlier.path = handle.path → earlier.typeName ≠ handle.typeName) →
        ownPathWritten (before ++ handle :: after) handle = .ok (.resource handle) := by
  intro red other
  have emptied : ownPathWritten [red] red = .ok .null :=
    ownPathWritten_eq none (by decide +kernel)
  refine ⟨emptied, ownPathWritten_eq (some other) (by decide +kernel), fun claimed => ?_⟩
  cases emptied.symm.trans (claimed [] [] red (by simp))

end Coercion
end SceneEdit
