/-!
# Fields

Named values in the order in which the names first appeared: the shape of an object, a table and a
row of settings. Names are of any type in which equality is decided. A name occurs once in what
`Fields.put` builds; putting a value under a name that is there replaces the value and keeps the
place.

* `Fields.get?` — the value under a name;
* `Fields.put` — a field added or replaced;
* `Fields.ofPairs` — the fields of a list of pairs, later values replacing earlier ones.
-/

namespace SymbolAtlas

/-- Named values in order. -/
abbrev Fields (κ α : Type) := List (κ × α)

namespace Fields

variable {κ α : Type} [DecidableEq κ]

/-- The value under the name. -/
def get? (fs : Fields κ α) (name : κ) : Option α :=
  match fs with
  | [] => none
  | (n, v) :: rest => if n = name then some v else get? rest name

/-- Whether the name is there. -/
def has (fs : Fields κ α) (name : κ) : Bool :=
  (get? fs name).isSome

omit [DecidableEq κ] in
/-- The names in order. -/
def names (fs : Fields κ α) : List κ :=
  fs.map Prod.fst

/-- The fields with a value under the name: in the place of the old value, or at the end. -/
def put (fs : Fields κ α) (name : κ) (value : α) : Fields κ α :=
  match fs with
  | [] => [(name, value)]
  | (n, v) :: rest => if n = name then (n, value) :: rest else (n, v) :: put rest name value

/-- The fields of the pairs. -/
def ofPairs (pairs : List (κ × α)) : Fields κ α :=
  pairs.foldl (fun fs (n, v) => put fs n v) []

@[simp] theorem get?_nil (name : κ) : get? ([] : Fields κ α) name = none := rfl

/-- The value under a name that is not there. -/
theorem get?_eq_none_iff {fs : Fields κ α} {name : κ} :
    get? fs name = none ↔ name ∉ names fs := by
  induction fs with
  | nil => simp [names]
  | cons f fs ih => grind [get?, names]

/-- Where the names are distinct, the value under a name is the one that stands with it. -/
theorem get?_eq_some_iff {fs : Fields κ α} (h : (names fs).Nodup) {name : κ} {value : α} :
    get? fs name = some value ↔ (name, value) ∈ fs := by
  induction fs with
  | nil => simp
  | cons f fs ih =>
    obtain ⟨hf, hfs⟩ := List.nodup_cons.1 h
    rw [get?, List.mem_cons, ← ih hfs]
    split
    · next heq =>
      subst heq
      have hnone : get? fs f.1 = none := get?_eq_none_iff.2 hf
      simp [hnone, Prod.ext_iff, eq_comm]
    · next hne =>
      have : (name, value) ≠ f := fun heq => hne (heq ▸ rfl)
      simp [this]

/-- Reading back what was put, and whatever was not put over. -/
theorem get?_put (fs : Fields κ α) (name other : κ) (value : α) :
    get? (put fs name value) other = if name = other then some value else get? fs other := by
  induction fs with
  | nil => simp [put, get?]
  | cons f rest ih => grind [put, get?]

/-- The names after a put. -/
theorem names_put (fs : Fields κ α) (name : κ) (value : α) :
    names (put fs name value) = if name ∈ names fs then names fs else names fs ++ [name] := by
  induction fs with
  | nil => simp [put, names]
  | cons f rest ih => grind [put, names]

/-- Putting a value keeps the names distinct. -/
theorem nodup_names_put {fs : Fields κ α} (h : (names fs).Nodup) (name : κ) (value : α) :
    (names (put fs name value)).Nodup := by
  rw [names_put]
  split
  · exact h
  · next hmem =>
    refine List.nodup_append.2 ⟨h, by simp, fun other hother name' hname' => ?_⟩
    rw [List.mem_singleton.1 hname']
    rintro rfl
    exact hmem hother

theorem put_of_not_mem {fs : Fields κ α} {name : κ} (h : name ∉ names fs) (value : α) :
    put fs name value = fs ++ [(name, value)] := by
  induction fs with
  | nil => rfl
  | cons f rest ih =>
    have hne : f.1 ≠ name := fun heq => h (heq ▸ List.mem_cons_self ..)
    have hrest : name ∉ names rest := fun hmem => h (List.mem_cons_of_mem _ hmem)
    rw [put, if_neg hne, ih hrest, List.cons_append]

/-- Pairs whose names are distinct are fields already. -/
theorem ofPairs_eq_self {fs : Fields κ α} (h : (names fs).Nodup) : ofPairs fs = fs := by
  have hfold : ∀ done : Fields κ α, (names (done ++ fs)).Nodup →
      fs.foldl (fun fs (n, v) => put fs n v) done = done ++ fs := by
    clear h
    induction fs with
    | nil => simp
    | cons f fs ih =>
      intro done h
      obtain ⟨n, v⟩ := f
      have hn : n ∉ names done := by
        rw [names, List.map_append, List.nodup_append] at h
        exact fun hmem => h.2.2 _ hmem _ (List.mem_cons_self ..) rfl
      have happend : done ++ (n, v) :: fs = done ++ [(n, v)] ++ fs := by simp
      rw [List.foldl_cons]
      dsimp only
      rw [put_of_not_mem hn, ih _ (happend ▸ h), ← happend]
  exact hfold [] h

omit [DecidableEq κ] in
/-- What is left of names once repeated ones are dropped. -/
theorem nodup_eraseDups [BEq κ] [LawfulBEq κ] (names : List κ) : names.eraseDups.Nodup := by
  match names with
  | [] => simp
  | name :: names =>
    rw [List.eraseDups_cons, List.nodup_cons]
    exact ⟨by simp [List.mem_eraseDups], nodup_eraseDups _⟩
termination_by names.length
decreasing_by exact Nat.lt_succ_of_le (List.length_filter_le _ _)

end Fields

end SymbolAtlas
