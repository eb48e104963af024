/-!
# Dictionaries: finite maps kept in the order of their keys

* `Keys` : what an order has to be for keys to have one place each;
* `Dictionary κ ν` : entries in strictly ascending order of their keys;
* `get?`, `insert`, `restrict`, `map`, `insertAll`, `ofList`, `laidOver` : the operations, each with
  what it answers to every key (`get?_insert`, `get?_restrict`, `get?_map`, `get?_insertAll`);
* `ext_get?` : dictionaries that answer every key alike are equal, so a map has one form whatever
  the order in which it was built.
-/

namespace ImageMacros

/-! ## Keys -/

/-- Keys with a strict linear order. -/
class Keys (κ : Type) [LT κ] : Prop where
  lt_irrefl : ∀ a : κ, ¬ a < a
  lt_trans : ∀ {a b c : κ}, a < b → b < c → a < c
  lt_of_not_lt : ∀ {a b : κ}, ¬ a < b → a ≠ b → b < a

instance : Keys String where
  lt_irrefl := String.lt_irrefl
  lt_trans := String.lt_trans
  lt_of_not_lt h hne := Std.lt_of_le_of_ne (String.not_lt.1 h) (Ne.symm hne)

instance {α : Type} [LT α] [Keys α] [DecidableEq α] : Keys (List α) where
  lt_irrefl :=
    have : Std.Irrefl fun a b : α => a < b := ⟨Keys.lt_irrefl⟩
    List.lt_irrefl
  lt_trans :=
    have : Trans (fun a b : α => a < b) (fun a b : α => a < b) fun a b : α => a < b :=
      ⟨Keys.lt_trans⟩
    List.lt_trans
  lt_of_not_lt := by
    intro as
    induction as with
    | nil =>
      rintro (_ | ⟨b, bs⟩) h hne
      · exact absurd rfl hne
      · exact absurd (List.nil_lt_cons b bs) h
    | cons a as ih =>
      rintro (_ | ⟨b, bs⟩) h hne
      · exact List.nil_lt_cons a as
      · rw [List.cons_lt_cons_iff] at h ⊢
        by_cases hab : a = b
        · subst hab
          exact .inr ⟨rfl, ih (fun hlt => h (.inr ⟨rfl, hlt⟩)) fun he => hne (he ▸ rfl)⟩
        · exact .inl (Keys.lt_of_not_lt (fun hlt => h (.inl hlt)) hab)

/-! ## Dictionaries -/

/-- A finite map as its entries in strictly ascending order of keys. -/
structure Dictionary (κ ν : Type) [LT κ] where
  entries : List (κ × ν)
  ascending : entries.Pairwise (fun a b => a.1 < b.1)
deriving DecidableEq

namespace Dictionary

/-! ## Entries -/

section Entries

variable {κ ν μ : Type} [DecidableEq κ]

def find? (k : κ) : List (κ × ν) → Option ν
  | [] => none
  | (l, v) :: rest => if k = l then some v else find? k rest

@[simp] theorem find?_nil (k : κ) : find? k ([] : List (κ × ν)) = none := rfl

theorem find?_cons (k : κ) (e : κ × ν) (es : List (κ × ν)) :
    find? k (e :: es) = if k = e.1 then some e.2 else find? k es := rfl

theorem find?_eq_head? (k : κ) (es : List (κ × ν)) :
    find? k es = ((es.filter fun e => e.1 = k).head?).map (·.2) := by
  induction es with
  | nil => rfl
  | cons e es ih => by_cases h : e.1 = k <;> simp [find?_cons, ih, h, Ne.symm]

theorem find?_append (k : κ) (es fs : List (κ × ν)) :
    find? k (es ++ fs) = (find? k es).or (find? k fs) := by
  induction es with
  | nil => simp
  | cons e es ih => simp only [List.cons_append, find?_cons]; split <;> simp [*]

theorem find?_filter (p : κ → Bool) (k : κ) (es : List (κ × ν)) :
    find? k (es.filter fun e => p e.1) = if p k then find? k es else none := by
  induction es with
  | nil => simp
  | cons e es ih => grind [find?_cons]

theorem find?_map (f : ν → μ) (k : κ) (es : List (κ × ν)) :
    find? k (es.map fun e => (e.1, f e.2)) = (find? k es).map f := by
  induction es with
  | nil => simp
  | cons e es ih => simp only [List.map_cons, find?_cons]; split <;> simp [*]

variable [LT κ] [DecidableLT κ]

/-- The entries with `k ↦ v` put in its place, over an entry of the same key. -/
def insertEntry (k : κ) (v : ν) : List (κ × ν) → List (κ × ν)
  | [] => [(k, v)]
  | (l, w) :: rest =>
    if k < l then (k, v) :: (l, w) :: rest
    else if k = l then (k, v) :: rest
    else (l, w) :: insertEntry k v rest

theorem mem_insertEntry {k : κ} {v : ν} {e : κ × ν} {es : List (κ × ν)}
    (h : e ∈ insertEntry k v es) : e = (k, v) ∨ e ∈ es := by
  induction es with
  | nil => simpa [insertEntry] using h
  | cons p rest ih => grind [insertEntry]

theorem find?_insertEntry (k l : κ) (v : ν) (es : List (κ × ν)) :
    find? l (insertEntry k v es) = if l = k then some v else find? l es := by
  induction es with
  | nil => rfl
  | cons p rest ih => grind [insertEntry, find?_cons]

end Entries

section Order

variable {κ ν : Type} [DecidableEq κ] [LT κ] [DecidableLT κ] [Keys κ]

theorem insertEntry_ascending (k : κ) (v : ν) {es : List (κ × ν)}
    (h : es.Pairwise (fun a b => a.1 < b.1)) :
    (insertEntry k v es).Pairwise (fun a b => a.1 < b.1) := by
  induction es with
  | nil => simp [insertEntry]
  | cons p rest ih =>
    obtain ⟨l, w⟩ := p
    obtain ⟨hl, hr⟩ := List.pairwise_cons.1 h
    simp only [insertEntry]
    split
    · next hk =>
      refine List.pairwise_cons.2 ⟨fun e he => ?_, h⟩
      rcases List.mem_cons.1 he with rfl | he
      · exact hk
      · exact Keys.lt_trans hk (hl e he)
    · next hk =>
      split
      · next hkl => subst hkl; exact List.pairwise_cons.2 ⟨hl, hr⟩
      · next hne =>
        refine List.pairwise_cons.2 ⟨fun e he => ?_, ih hr⟩
        rcases mem_insertEntry he with rfl | he
        · exact Keys.lt_of_not_lt hk hne
        · exact hl e he

omit [DecidableLT κ] in
theorem find?_eq_none_of_lt {k : κ} {es : List (κ × ν)} (h : ∀ e ∈ es, k < e.1) :
    find? k es = none := by
  induction es with
  | nil => rfl
  | cons p rest ih =>
    have hne : k ≠ p.1 := fun he => Keys.lt_irrefl p.1 (he ▸ h p (by simp))
    rw [find?_cons, if_neg hne, ih fun e he => h e (by simp [he])]

omit [DecidableLT κ] in
/-- An ascending list answers none of the keys before its first. -/
theorem head_not_lt {p q : κ × ν} {es fs : List (κ × ν)}
    (hf : (q :: fs).Pairwise (fun a b => a.1 < b.1))
    (h : ∀ k, find? k (p :: es) = find? k (q :: fs)) : ¬ p.1 < q.1 := by
  intro hlt
  have hnone : find? p.1 (q :: fs) = none := find?_eq_none_of_lt fun e he => by
    rcases List.mem_cons.1 he with rfl | he
    · exact hlt
    · exact Keys.lt_trans hlt (List.rel_of_pairwise_cons hf he)
  have hp := h p.1
  rw [hnone, find?_cons, if_pos rfl] at hp
  simp at hp

omit [DecidableLT κ] in
theorem eq_of_find?_eq {es fs : List (κ × ν)} (he : es.Pairwise (fun a b => a.1 < b.1))
    (hf : fs.Pairwise (fun a b => a.1 < b.1)) (h : ∀ k, find? k es = find? k fs) : es = fs := by
  induction es generalizing fs with
  | nil =>
    cases fs with
    | nil => rfl
    | cons q rest => simpa [find?_cons] using h q.1
  | cons p es ih =>
    cases fs with
    | nil => simpa [find?_cons] using h p.1
    | cons q fs =>
      have hk : p.1 = q.1 := Decidable.byContradiction fun hne =>
        head_not_lt he (fun k => (h k).symm) (Keys.lt_of_not_lt (head_not_lt hf h) hne)
      have hpq : p = q := Prod.ext hk (by simpa [find?_cons, hk] using h p.1)
      subst hpq
      obtain ⟨hp, he⟩ := List.pairwise_cons.1 he
      obtain ⟨hq, hf⟩ := List.pairwise_cons.1 hf
      refine congrArg (p :: ·) (ih he hf fun k => ?_)
      by_cases hkp : k = p.1
      · subst hkp
        rw [find?_eq_none_of_lt hp, find?_eq_none_of_lt hq]
      · simpa [find?_cons, hkp] using h k

end Order

/-! ## Operations -/

section Views

variable {κ ν μ : Type} [LT κ]

def empty : Dictionary κ ν := ⟨[], .nil⟩

instance : Inhabited (Dictionary κ ν) := ⟨empty⟩

def keys (d : Dictionary κ ν) : List κ := d.entries.map (·.1)

def size (d : Dictionary κ ν) : Nat := d.entries.length

def isEmpty (d : Dictionary κ ν) : Bool := d.entries.isEmpty

def restrict (d : Dictionary κ ν) (p : κ → Bool) : Dictionary κ ν :=
  ⟨d.entries.filter fun e => p e.1, d.ascending.filter _⟩

def map (d : Dictionary κ ν) (f : ν → μ) : Dictionary κ μ :=
  ⟨d.entries.map fun e => (e.1, f e.2), d.ascending.map _ fun _ _ h => h⟩

variable [DecidableEq κ]

def get? (d : Dictionary κ ν) (k : κ) : Option ν := find? k d.entries

@[simp] theorem get?_empty (k : κ) : (empty : Dictionary κ ν).get? k = none := rfl

theorem get?_restrict (d : Dictionary κ ν) (p : κ → Bool) (k : κ) :
    (d.restrict p).get? k = if p k then d.get? k else none :=
  find?_filter p k d.entries

theorem get?_map (d : Dictionary κ ν) (f : ν → μ) (k : κ) :
    (d.map f).get? k = (d.get? k).map f :=
  find?_map f k d.entries

end Views

section Insertion

variable {κ ν : Type} [DecidableEq κ] [LT κ] [DecidableLT κ] [Keys κ]

def insert (d : Dictionary κ ν) (k : κ) (v : ν) : Dictionary κ ν :=
  ⟨insertEntry k v d.entries, insertEntry_ascending k v d.ascending⟩

/-- All pairs inserted from the left, so that the later of two with one key stays. -/
def insertAll (d : Dictionary κ ν) (pairs : List (κ × ν)) : Dictionary κ ν :=
  pairs.foldl (fun d e => d.insert e.1 e.2) d

def ofList (pairs : List (κ × ν)) : Dictionary κ ν := empty.insertAll pairs

/-- Where both have a key, `upper` decides. -/
def laidOver (upper lower : Dictionary κ ν) : Dictionary κ ν := lower.insertAll upper.entries

theorem get?_insert (d : Dictionary κ ν) (k l : κ) (v : ν) :
    (d.insert k v).get? l = if l = k then some v else d.get? l :=
  find?_insertEntry k l v d.entries

theorem get?_insertAll (d : Dictionary κ ν) (pairs : List (κ × ν)) (k : κ) :
    (d.insertAll pairs).get? k = (find? k pairs.reverse).or (d.get? k) := by
  induction pairs generalizing d with
  | nil => simp [insertAll]
  | cons e rest ih =>
    have step : d.insertAll (e :: rest) = (d.insert e.1 e.2).insertAll rest := rfl
    rw [step, ih, get?_insert, List.reverse_cons, find?_append, find?_cons]
    split <;> cases find? k rest.reverse <;> simp

/-- The last pair of a key decides. -/
theorem get?_ofList (pairs : List (κ × ν)) (k : κ) :
    (ofList pairs).get? k = find? k pairs.reverse := by
  simp [ofList, get?_insertAll]

theorem get?_ofList_eq_getLast? (pairs : List (κ × ν)) (k : κ) :
    (ofList pairs).get? k = ((pairs.filter fun e => e.1 = k).getLast?).map (·.2) := by
  rw [get?_ofList, find?_eq_head?, List.filter_reverse, List.head?_reverse]

theorem insertAll_append (d : Dictionary κ ν) (as bs : List (κ × ν)) :
    d.insertAll (as ++ bs) = (d.insertAll as).insertAll bs :=
  List.foldl_append

theorem mem_of_mem_insertAll {d : Dictionary κ ν} {pairs : List (κ × ν)} {e : κ × ν}
    (h : e ∈ (d.insertAll pairs).entries) : e ∈ d.entries ∨ e ∈ pairs := by
  induction pairs generalizing d with
  | nil => exact .inl h
  | cons p rest ih =>
    rcases ih (d := d.insert p.1 p.2) h with h | h
    · rcases mem_insertEntry h with rfl | h
      · exact .inr List.mem_cons_self
      · exact .inl h
    · exact .inr (List.mem_cons_of_mem p h)

theorem mem_of_mem_ofList {pairs : List (κ × ν)} {e : κ × ν} (h : e ∈ (ofList pairs).entries) : e ∈ pairs :=
  (mem_of_mem_insertAll h).resolve_left List.not_mem_nil

theorem isEmpty_ofList {pairs : List (κ × ν)} (h : pairs ≠ []) : (ofList pairs).isEmpty = false := by
  obtain ⟨p, rest, rfl⟩ := List.exists_cons_of_ne_nil h
  have hget : (ofList (p :: rest)).get? p.1 ≠ none := by simp [get?_ofList_eq_getLast?]
  refine Bool.eq_false_iff.2 fun hempty => hget ?_
  rw [get?, List.isEmpty_iff.1 hempty, find?_nil]

omit [DecidableLT κ] in
theorem ext_get? {d e : Dictionary κ ν} (h : ∀ k, d.get? k = e.get? k) : d = e := by
  have := eq_of_find?_eq d.ascending e.ascending h
  cases d; cases e; simp_all

end Insertion

end Dictionary
end ImageMacros
