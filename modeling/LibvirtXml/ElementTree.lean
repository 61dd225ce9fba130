/-
# The ElementTree layer under `vm_xml.py`

`vm_xml.py` never edits XML text.  It holds an `xml_utils.XMLTreeFile`, an ElementTree, and
works on its elements IN PLACE: `find` hands back an element object, `set` and `remove` change
it, and every later `find` sees the change.  A pure model cannot share objects, so a found
element is represented by its ADDRESS, the child indices from the root (`Path`), and an in-place
change is an update at that address (`Element.modifyAt`).  This is faithful because the code
never keeps an element across a change of the children above it.

The same module holds the few pieces of Python the code relies on: the exceptions it raises or
catches (`PyError`), list indexing with negative indices (`pyIndex`), and dictionary update
(`dictSet`), which is what an attribute dictionary and `get_disk_all`'s result both are.

ElementTree's `tail` text (what follows an element inside its parent) is read by no function of
`vm_xml.py` and is left out.
-/
import Mathlib.Data.List.Infix
import Mathlib.Data.List.Dedup

namespace LibvirtXml

/-! ## 1. Python -/

/-- The exceptions that `vm_xml.py` raises, catches or lets through.  `cmdError` carries the
external tool's diagnostic text, `libvirtXMLError` the message `vm_xml.py` formats. -/
inductive PyError where
  /-- `error.CmdError`: an external command failed. -/
  | cmdError (detail : String)
  /-- `xcepts.LibvirtXMLError` with its message. -/
  | libvirtXMLError (msg : String)
  /-- The accessor layer found no element for a property. -/
  | notFoundError (propertyName : String)
  /-- The accessor layer refused an operation the descriptor forbids. -/
  | forbiddenError (propertyName : String) (operation : String)
  /-- `AttributeError`: a method called on `None`, the result of a failed `find`. -/
  | attributeError
  /-- `AssertionError`: `Element.remove` given something that is not an element. -/
  | assertionError
  /-- `IndexError`: a list index out of range. -/
  | indexError
  /-- `ValueError`: `list.remove` of an element that is not in the list. -/
  | valueError
  /-- The parser's error for text that is not well-formed markup, with expat's message. -/
  | parseError (msg : String)
deriving Repr, DecidableEq

/-- The text of the exception, as `str(e)` prints it. -/
def PyError.message : PyError → String
  | .cmdError detail => detail
  | .libvirtXMLError msg => msg
  | .notFoundError propertyName => propertyName
  | .forbiddenError propertyName operation => propertyName ++ " " ++ operation
  | .attributeError => "'NoneType' object has no attribute"
  | .assertionError => ""
  | .indexError => "list index out of range"
  | .valueError => "list.remove(x): x not in list"
  | .parseError msg => msg

/-- An exception reports a diagnostic when its text contains it. -/
def PyError.reports (e : PyError) (detail : String) : Prop :=
  detail.toList <:+: e.message.toList

instance (e : PyError) (detail : String) : Decidable (e.reports detail) :=
  inferInstanceAs (Decidable (_ <:+: _))

/-- Python's `l[i]`: a negative index counts from the end, anything else out of range raises
`IndexError`. -/
def pyIndex {α : Type} (l : List α) (i : Int) : Except PyError α :=
  let j := if i < 0 then i + l.length else i
  match (if 0 ≤ j then l[j.toNat]? else none) with
  | some a => .ok a
  | none => .error .indexError

/-- On an index in `0 ≤ i < len`, Python indexing is list indexing. -/
theorem pyIndex_of_lt {α : Type} (l : List α) (i : Nat) (h : i < l.length) :
    pyIndex l i = .ok l[i] := by
  have h0 : ¬ (i : Int) < 0 := by omega
  simp [pyIndex, h0, h, Int.ofNat_nonneg]

/-- Whatever the index, what Python's indexing returns is an element of the list. -/
theorem mem_of_pyIndex {α : Type} {l : List α} {i : Int} {a : α} (h : pyIndex l i = .ok a) :
    a ∈ l := by
  have hsome : ∀ o : Option α, (match o with
      | some a => Except.ok a
      | none => Except.error PyError.indexError) = Except.ok a → a ∈ o := by
    rintro (_ | b) h <;> cases h; rfl
  unfold pyIndex at h
  have ho := hsome _ h
  split_ifs at ho <;> first | exact List.getElem?_mem ho | cases ho

/-- `d[k] = v` on a dictionary kept as a list of pairs: a key already present keeps its place. -/
def dictSet {κ α : Type} [DecidableEq κ] : List (κ × α) → κ → α → List (κ × α)
  | [], k, v => [(k, v)]
  | (k', v') :: d, k, v => if k' = k then (k, v) :: d else (k', v') :: dictSet d k v

section Dict

variable {κ α : Type} [DecidableEq κ]

/-- What `d[key]` reads after `d[k] = v`, for any lawful equality on the keys. -/
theorem lookup_dictSet [BEq κ] [LawfulBEq κ] (d : List (κ × α)) (k : κ) (v : α) (key : κ) :
    (dictSet d k v).lookup key = if k = key then some v else d.lookup key := by
  induction d with
  | nil =>
    by_cases h : k = key
    · subst h; simp [dictSet, List.lookup_cons]
    · simp [dictSet, List.lookup_cons, h, beq_false_of_ne (Ne.symm h)]
  | cons e d ih =>
    obtain ⟨k', v'⟩ := e
    by_cases hk : k' = k
    · subst hk
      by_cases h : k' = key
      · subst h; simp [dictSet, List.lookup_cons]
      · simp [dictSet, List.lookup_cons, h, beq_false_of_ne (Ne.symm h)]
    · simp only [dictSet, hk, if_false, List.lookup_cons, ih]
      by_cases h : k' = key
      · subst h; simp [Ne.symm hk]
      · simp [beq_false_of_ne (Ne.symm h)]

@[simp] theorem lookup_dictSet_self (d : List (κ × α)) (k : κ) (v : α) :
    (dictSet d k v).lookup k = some v := by
  rw [lookup_dictSet, if_pos rfl]

theorem lookup_dictSet_ne (d : List (κ × α)) {k k' : κ} (v : α) (h : k' ≠ k) :
    (dictSet d k v).lookup k' = d.lookup k' := by
  rw [lookup_dictSet, if_neg (Ne.symm h)]

/-- Writing the value a key already has changes nothing. -/
theorem dictSet_eq_self {d : List (κ × α)} {k : κ} {v : α} (h : d.lookup k = some v) :
    dictSet d k v = d := by
  induction d with
  | nil => simp at h
  | cons p d ih =>
    obtain ⟨k', v'⟩ := p
    by_cases hk : k' = k
    · subst hk; simp_all [dictSet, List.lookup_cons]
    · simp only [dictSet, hk, if_false, List.cons.injEq, true_and]
      exact ih (by simpa [List.lookup_cons, beq_false_of_ne (Ne.symm hk)] using h)

/-- The keys after `d[k] = v`: `k` joins them when it was not there. -/
theorem keys_dictSet (d : List (κ × α)) (k : κ) (v : α) :
    (dictSet d k v).map Prod.fst = if k ∈ d.map Prod.fst then d.map Prod.fst
      else d.map Prod.fst ++ [k] := by
  induction d with
  | nil => simp [dictSet]
  | cons p d ih =>
    obtain ⟨k', v'⟩ := p
    by_cases h : k' = k
    · subst h; simp [dictSet]
    · simp only [dictSet, h, if_false, List.map_cons, ih, List.mem_cons]
      split <;> simp_all [eq_comm]

theorem mem_dictSet {d : List (κ × α)} {k : κ} {v : α} {e : κ × α} (h : e ∈ dictSet d k v) :
    e ∈ d ∨ e = (k, v) := by
  induction d with
  | nil => simpa [dictSet] using h
  | cons p d ih =>
    obtain ⟨k', v'⟩ := p
    by_cases hk : k' = k
    · simp only [dictSet, hk, if_true, List.mem_cons] at h ⊢; tauto
    · simp only [dictSet, hk, if_false, List.mem_cons] at h ⊢
      rcases h with h | h
      · exact .inl (.inl h)
      · exact (ih h).imp_left .inr

theorem nodup_keys_dictSet {d : List (κ × α)} (h : (d.map Prod.fst).Nodup) (k : κ) (v : α) :
    ((dictSet d k v).map Prod.fst).Nodup := by
  rw [keys_dictSet]
  split
  · exact h
  · exact h.append (List.nodup_singleton k) (List.disjoint_singleton.mpr ‹_›)

variable (k : α → κ)

/-- **The keys after `for x in xs: d[k(x)] = x`** are the old keys and the keys of `xs`. -/
theorem mem_keys_foldl_dictSet : ∀ (xs : List α) (d : List (κ × α)) (key : κ),
    key ∈ (xs.foldl (fun d x => dictSet d (k x) x) d).map Prod.fst ↔
      key ∈ d.map Prod.fst ∨ key ∈ xs.map k
  | [], d, key => by simp
  | x :: xs, d, key => by
    rw [List.foldl_cons, mem_keys_foldl_dictSet xs, keys_dictSet]
    by_cases hx : k x ∈ d.map Prod.fst
    · simp only [hx, if_true, List.map_cons, List.mem_cons]
      constructor
      · tauto
      · rintro (h | rfl | h) <;> tauto
    · simp [hx, or_assoc]

theorem nodup_keys_foldl_dictSet : ∀ (xs : List α) {d : List (κ × α)},
    (d.map Prod.fst).Nodup → ((xs.foldl (fun d x => dictSet d (k x) x) d).map Prod.fst).Nodup
  | [], _, h => h
  | _ :: xs, _, h => nodup_keys_foldl_dictSet xs (nodup_keys_dictSet h _ _)

/-- **Every entry the loop leaves is an old entry, or an entry of `xs` under its own key.** -/
theorem mem_foldl_dictSet : ∀ (xs : List α) (d : List (κ × α)) {e : κ × α},
    e ∈ xs.foldl (fun d x => dictSet d (k x) x) d → e ∈ d ∨ (e.2 ∈ xs ∧ k e.2 = e.1)
  | [], _, _, h => .inl h
  | x :: xs, d, e, h => by
    rcases mem_foldl_dictSet xs _ h with h | h
    · rcases mem_dictSet h with h | rfl
      · exact .inl h
      · exact .inr ⟨List.mem_cons_self _ _, rfl⟩
    · exact .inr ⟨List.mem_cons_of_mem _ h.1, h.2⟩

/-- **The last write wins**: after the loop a key holds the last element of `xs` filed under
it, or its old entry when there is none. -/
theorem lookup_foldl_dictSet [BEq κ] [LawfulBEq κ] : ∀ (xs : List α) (d : List (κ × α)) (key : κ),
    (xs.foldl (fun d x => dictSet d (k x) x) d).lookup key =
      ((xs.filter (k · == key)).getLast?).or (d.lookup key)
  | [], d, key => by simp
  | x :: xs, d, key => by
    rw [List.foldl_cons, lookup_foldl_dictSet xs, lookup_dictSet]
    by_cases hx : k x = key
    · rw [if_pos hx, List.filter_cons_of_pos (by simpa using hx), List.getLast?_cons]
      cases (xs.filter (k · == key)).getLast? <;> rfl
    · rw [if_neg hx, List.filter_cons_of_neg (by simpa using hx)]

end Dict

/-- A loop whose body raises for no element runs as the loop without the raise. -/
theorem foldlM_except_ok {ε α β : Type} (f : β → α → Except ε β) (g : β → α → β) :
    ∀ (xs : List α) (b : β), (∀ b, ∀ x ∈ xs, f b x = .ok (g b x)) →
      xs.foldlM f b = .ok (xs.foldl g b)
  | [], _, _ => rfl
  | x :: xs, b, h => by
    rw [List.foldlM_cons, h b x (List.mem_cons_self _ _)]
    exact foldlM_except_ok f g xs _ fun b y hy => h b y (List.mem_cons_of_mem _ hy)

section FoldlM

variable {ε α β : Type} (f : β → α → Except ε β)

/-- A loop that returns ran its body, without a raise, on every element. -/
theorem foldlM_except_ok_mem : ∀ (xs : List α) (b : β) {r : β}, xs.foldlM f b = .ok r →
    ∀ x ∈ xs, ∃ b' b'', f b' x = .ok b''
  | [], _, _, _, x, hx => absurd hx (List.not_mem_nil x)
  | x :: xs, b, _, h, y, hy => by
    rw [List.foldlM_cons] at h
    cases hb : f b x with
    | error e => rw [hb] at h; cases h
    | ok b' =>
      rw [hb] at h
      rcases List.mem_cons.mp hy with rfl | hy
      · exact ⟨b, b', hb⟩
      · exact foldlM_except_ok_mem xs b' h y hy

/-- A loop that raises raised in its body. -/
theorem foldlM_except_error : ∀ (xs : List α) (b : β) {e : ε}, xs.foldlM f b = .error e →
    ∃ b' x, f b' x = .error e
  | [], _, _, h => by cases h
  | x :: xs, b, e, h => by
    rw [List.foldlM_cons] at h
    cases hb : f b x with
    | error e' => rw [hb] at h; cases h; exact ⟨b, x, hb⟩
    | ok b' => rw [hb] at h; exact foldlM_except_error xs b' h

end FoldlM

/-- The positions of the entries of `l` that satisfy `p`, in order. -/
def positions {α : Type} (p : α → Bool) : List α → List Nat
  | [] => []
  | a :: l => if p a then 0 :: (positions p l).map (· + 1) else (positions p l).map (· + 1)

section Positions

variable {α : Type} (p : α → Bool)

@[simp] theorem positions_nil : positions p [] = [] := rfl

theorem positions_cons (a : α) (l : List α) : positions p (a :: l) =
    if p a then 0 :: (positions p l).map (· + 1) else (positions p l).map (· + 1) := rfl

theorem length_positions (l : List α) : (positions p l).length = (l.filter p).length := by
  induction l with
  | nil => rfl
  | cons a l ih => by_cases h : p a <;> simp [positions_cons, h, List.filter_cons, ih]

/-- **Reading `l` at its `k`-th `p`-position gives its `k`-th entry that satisfies `p`.** -/
theorem bind_getElem?_positions (l : List α) (k : Nat) :
    ((positions p l)[k]?).bind (l[·]?) = (l.filter p)[k]? := by
  induction l generalizing k with
  | nil => simp
  | cons a l ih =>
    cases h : p a
    · simp [positions_cons, h, List.filter_cons, ← ih, Option.bind_map, Function.comp_def]
    · cases k <;> simp [positions_cons, h, List.filter_cons, ← ih, Option.bind_map,
        Function.comp_def]

theorem positions_eq_nil (l : List α) : positions p l = [] ↔ ∀ a ∈ l, p a = false := by
  rw [← List.length_eq_zero, length_positions, List.length_eq_zero, List.filter_eq_nil_iff]
  simp

/-- Changing the entry at the `k`-th `p`-position, in a way `p` does not see, changes the
`k`-th entry of the filtered list and nothing else in it. -/
theorem filter_modify_positions (f : α → α) (hf : ∀ a, p (f a) = p a) (l : List α) {k j : Nat}
    (hj : (positions p l)[k]? = some j) : (l.modify f j).filter p = (l.filter p).modify f k := by
  induction l generalizing k j with
  | nil => simp at hj
  | cons a l ih =>
    cases h : p a
    · simp only [positions_cons, h, Bool.false_eq_true, if_false, List.getElem?_map,
        Option.map_eq_some'] at hj
      obtain ⟨j, hj, rfl⟩ := hj
      simp [List.filter_cons, h, ih hj]
    · cases k with
      | zero =>
        simp only [positions_cons, h, if_true, List.getElem?_cons_zero, Option.some.injEq] at hj
        subst hj; simp [List.filter_cons, h, hf]
      | succ k =>
        simp only [positions_cons, h, if_true, List.getElem?_cons_succ, List.getElem?_map,
          Option.map_eq_some'] at hj
        obtain ⟨j, hj, rfl⟩ := hj
        simp [List.filter_cons, h, ih hj]

/-- Dropping the entry at the `k`-th `p`-position drops the `k`-th entry of the filtered list. -/
theorem filter_eraseIdx_positions (l : List α) {k j : Nat} (hj : (positions p l)[k]? = some j) :
    (l.eraseIdx j).filter p = (l.filter p).eraseIdx k := by
  induction l generalizing k j with
  | nil => simp at hj
  | cons a l ih =>
    cases h : p a
    · simp only [positions_cons, h, Bool.false_eq_true, if_false, List.getElem?_map,
        Option.map_eq_some'] at hj
      obtain ⟨j, hj, rfl⟩ := hj
      simp [List.filter_cons, h, ih hj]
    · cases k with
      | zero =>
        simp only [positions_cons, h, if_true, List.getElem?_cons_zero, Option.some.injEq] at hj
        subst hj; simp [List.filter_cons, h]
      | succ k =>
        simp only [positions_cons, h, if_true, List.getElem?_cons_succ, List.getElem?_map,
          Option.map_eq_some'] at hj
        obtain ⟨j, hj, rfl⟩ := hj
        simp [List.filter_cons, h, ih hj]

/-- Changing an entry in a way `p` does not see moves no `p`-position. -/
theorem positions_modify (f : α → α) : ∀ (l : List α) (i : Nat),
    (∀ a, l[i]? = some a → p (f a) = p a) → positions p (l.modify f i) = positions p l
  | [], _, _ => by cases ‹Nat› <;> rfl
  | a :: l, 0, h => by simp [positions_cons, h a (by simp)]
  | a :: l, i + 1, h => by
    simp only [List.modify_succ_cons, positions_cons, positions_modify f l i (by simpa using h)]

theorem positions_append_singleton (l : List α) (a : α) :
    positions p (l ++ [a]) = positions p l ++ if p a then [l.length] else [] := by
  induction l with
  | nil => by_cases h : p a <;> simp [positions_cons, h]
  | cons b l ih => by_cases h : p b <;> by_cases h' : p a <;> simp [positions_cons, h, h', ih]

/-- Editing the entry just appended. -/
theorem modify_append_length (f : α → α) (l : List α) (a : α) :
    (l ++ [a]).modify f l.length = l ++ [f a] := by
  induction l with
  | nil => rfl
  | cons b l ih => simp [ih]

/-- Dropping an entry that fails `p` does not change the first entry that satisfies it. -/
theorem find?_eraseIdx_of_not : ∀ (l : List α) {i : Nat} {a : α},
    l[i]? = some a → p a = false → (l.eraseIdx i).find? p = l.find? p
  | [], _, _, h, _ => by simp at h
  | b :: l, 0, a, h, ha => by
    simp only [List.getElem?_cons_zero, Option.some.injEq] at h; subst h
    simp [List.find?_cons, ha]
  | b :: l, i + 1, a, h, ha => by
    simp only [List.getElem?_cons_succ] at h
    simp [List.find?_cons, find?_eraseIdx_of_not l h ha]

/-- Changing an entry that fails `p` into another that fails it does not change the first entry
that satisfies `p`. -/
theorem find?_modify_of_not (f : α → α) : ∀ (l : List α) {i : Nat} {a : α},
    l[i]? = some a → p a = false → p (f a) = false → (l.modify f i).find? p = l.find? p
  | [], _, _, h, _, _ => by simp at h
  | b :: l, 0, a, h, ha, hfa => by
    simp only [List.getElem?_cons_zero, Option.some.injEq] at h; subst h
    simp [List.find?_cons, ha, hfa]
  | b :: l, i + 1, a, h, ha, hfa => by
    simp only [List.getElem?_cons_succ] at h
    simp [List.find?_cons, find?_modify_of_not f l h ha hfa]

theorem exists_of_mem_positions {l : List α} {j : Nat} (h : j ∈ positions p l) :
    ∃ a ∈ l.filter p, l[j]? = some a := by
  induction l generalizing j with
  | nil => simp at h
  | cons b l ih =>
    cases hb : p b
    · simp only [positions_cons, hb, Bool.false_eq_true, if_false, List.mem_map] at h
      obtain ⟨j, hj, rfl⟩ := h
      simpa [List.filter_cons, hb] using ih hj
    · simp only [positions_cons, hb, if_true, List.mem_cons, List.mem_map] at h
      rcases h with rfl | ⟨j, hj, rfl⟩
      · exact ⟨b, by simp [List.filter_cons, hb]⟩
      · obtain ⟨a, ha, ha'⟩ := ih hj
        exact ⟨a, by simp [List.filter_cons, hb, ha], by simpa using ha'⟩

theorem map_bind_getElem?_positions {β : Type} (g : α → Option β) (l : List α) :
    (positions p l).map (fun j => (l[j]?).bind g) = (l.filter p).map g := by
  induction l with
  | nil => rfl
  | cons a l ih =>
    cases h : p a <;> simp [positions_cons, h, List.filter_cons, ← ih, Function.comp_def]

theorem filter_modify_of_not (f : α → α) : ∀ (l : List α) {i : Nat} {a : α},
    l[i]? = some a → p a = false → p (f a) = false → (l.modify f i).filter p = l.filter p
  | [], _, _, h, _, _ => by simp at h
  | b :: l, 0, a, h, ha, hfa => by
    simp only [List.getElem?_cons_zero, Option.some.injEq] at h; subst h
    simp [List.filter_cons, ha, hfa]
  | b :: l, i + 1, a, h, ha, hfa => by
    simp only [List.getElem?_cons_succ] at h
    simp [List.filter_cons, filter_modify_of_not f l h ha hfa]

theorem filter_eraseIdx_of_not : ∀ (l : List α) {i : Nat} {a : α},
    l[i]? = some a → p a = false → (l.eraseIdx i).filter p = l.filter p
  | [], _, _, h, _ => by simp at h
  | b :: l, 0, a, h, ha => by
    simp only [List.getElem?_cons_zero, Option.some.injEq] at h; subst h
    simp [List.filter_cons, ha]
  | b :: l, i + 1, a, h, ha => by
    simp only [List.getElem?_cons_succ] at h
    simp [List.filter_cons, filter_eraseIdx_of_not l h ha]

theorem map_eraseIdx {β : Type} (g : α → β) : ∀ (l : List α) (i : Nat),
    (l.eraseIdx i).map g = (l.map g).eraseIdx i
  | [], _ => rfl
  | _ :: _, 0 => rfl
  | a :: l, i + 1 => by simp [map_eraseIdx g l i]

/-- Reading an entry through `g` after an edit that `g` maps to `b` is setting `b`. -/
theorem map_modify_of_const {β : Type} (f : α → α) (g : α → β) {b : β} (h : ∀ a, g (f a) = b) :
    ∀ (l : List α) (i : Nat), (l.modify f i).map g = (l.map g).set i b
  | [], _ => by simp
  | a :: l, 0 => by simp [h]
  | a :: l, i + 1 => by simp [map_modify_of_const f g h l i]

end Positions

/-! ## 2. Elements -/

/-- An ElementTree element: its tag, its attribute dictionary, its text and its children. -/
structure Element where
  tag : String
  attrib : List (String × String)
  text : Option String
  children : List Element
deriving Repr, Inhabited

mutual
/-- Structural equality of elements, decided (the derive handler does not cover the nested
`List Element`). -/
def Element.decEq : (a b : Element) → Decidable (a = b)
  | ⟨t, a, x, c⟩, ⟨t', a', x', c'⟩ =>
    match (inferInstance : Decidable (t = t')), (inferInstance : Decidable (a = a')),
      (inferInstance : Decidable (x = x')), Element.decEqList c c' with
    | isTrue h₁, isTrue h₂, isTrue h₃, isTrue h₄ => isTrue (by subst h₁ h₂ h₃ h₄; rfl)
    | isFalse h, _, _, _ => isFalse (fun e => h (by cases e; rfl))
    | _, isFalse h, _, _ => isFalse (fun e => h (by cases e; rfl))
    | _, _, isFalse h, _ => isFalse (fun e => h (by cases e; rfl))
    | _, _, _, isFalse h => isFalse (fun e => h (by cases e; rfl))
/-- Equality of child lists, decided alongside `Element.decEq`. -/
def Element.decEqList : (a b : List Element) → Decidable (a = b)
  | [], [] => isTrue rfl
  | [], _ :: _ => isFalse (fun e => by cases e)
  | _ :: _, [] => isFalse (fun e => by cases e)
  | a :: as, b :: bs =>
    match Element.decEq a b, Element.decEqList as bs with
    | isTrue h₁, isTrue h₂ => isTrue (by subst h₁ h₂; rfl)
    | isFalse h, _ => isFalse (fun e => h (by cases e; rfl))
    | _, isFalse h => isFalse (fun e => h (by cases e; rfl))
end

instance : DecidableEq Element := Element.decEq

/-- The address of an element: the child indices that lead to it from the root. -/
abbrev Path := List Nat

namespace Element

/-- `Element.get(key)`: the attribute's value, `None` when the element has no such attribute. -/
def get (e : Element) (key : String) : Option String := e.attrib.lookup key

/-- `Element.set(key, value)`. -/
def set (e : Element) (key value : String) : Element :=
  { e with attrib := dictSet e.attrib key value }

/-- `Element.findall(tag)`: the positions of the children with that tag, in document order. -/
def findall (e : Element) (tag : String) : List Nat := positions (·.tag == tag) e.children

/-- `Element.find(tag)`: the first of them. -/
def find (e : Element) (tag : String) : Option Nat := (e.findall tag).head?

/-- The child at a position. -/
def child? (e : Element) (i : Nat) : Option Element := e.children[i]?

/-- `ElementTree.SubElement(e, tag, attrib)`: a new, empty child appended after the others. -/
def subElement (e : Element) (tag : String) (attrib : List (String × String)) : Element :=
  { e with children := e.children ++ [⟨tag, attrib, none, []⟩] }

/-- Apply `f` to the child at position `i`. -/
def modifyChild (e : Element) (i : Nat) (f : Element → Element) : Element :=
  { e with children := e.children.modify f i }

/-- Drop the child at position `i`: what `Element.remove` does once it has found the child. -/
def removeChild (e : Element) (i : Nat) : Element :=
  { e with children := e.children.eraseIdx i }

/-- The element at an address, `none` when the address leaves the tree. -/
def getAt? (e : Element) : Path → Option Element
  | [] => some e
  | i :: p => (e.child? i).bind (·.getAt? p)

/-- Change the element at an address in place; an address outside the tree changes nothing. -/
def modifyAt (e : Element) : Path → (Element → Element) → Element
  | [], f => f e
  | i :: p, f => e.modifyChild i (·.modifyAt p f)

@[simp] theorem get_set_self (e : Element) (k v : String) : (e.set k v).get k = some v := by
  simp [get, set]

theorem get_set_ne (e : Element) {k k' : String} (v : String) (h : k' ≠ k) :
    (e.set k v).get k' = e.get k' := lookup_dictSet_ne _ _ h

/-- Setting an attribute to the value it has changes nothing. -/
theorem set_eq_self {e : Element} {k v : String} (h : e.get k = some v) : e.set k v = e := by
  obtain ⟨tag, attrib, text, children⟩ := e
  simp only [set, dictSet_eq_self (show attrib.lookup k = some v from h)]

@[simp] theorem set_set_self (e : Element) (k v : String) : (e.set k v).set k v = e.set k v :=
  set_eq_self (get_set_self e k v)

@[simp] theorem tag_set (e : Element) (k v : String) : (e.set k v).tag = e.tag := rfl
@[simp] theorem children_set (e : Element) (k v : String) : (e.set k v).children = e.children :=
  rfl
@[simp] theorem tag_modifyChild (e : Element) (i : Nat) (f : Element → Element) :
    (e.modifyChild i f).tag = e.tag := rfl
@[simp] theorem tag_removeChild (e : Element) (i : Nat) : (e.removeChild i).tag = e.tag := rfl
@[simp] theorem tag_subElement (e : Element) (t : String) (a : List (String × String)) :
    (e.subElement t a).tag = e.tag := rfl

@[simp] theorem getAt?_nil (e : Element) : e.getAt? [] = some e := rfl
@[simp] theorem getAt?_cons (e : Element) (i : Nat) (p : Path) :
    e.getAt? (i :: p) = (e.child? i).bind (·.getAt? p) := rfl
@[simp] theorem modifyAt_nil (e : Element) (f : Element → Element) : e.modifyAt [] f = f e := rfl
@[simp] theorem modifyAt_cons (e : Element) (i : Nat) (p : Path) (f : Element → Element) :
    e.modifyAt (i :: p) f = e.modifyChild i (·.modifyAt p f) := rfl

@[simp] theorem find_set (e : Element) (k v t : String) : (e.set k v).find t = e.find t := rfl

theorem modifyChild_modifyChild (e : Element) (i : Nat) (f g : Element → Element) :
    (e.modifyChild i f).modifyChild i g = e.modifyChild i (g ∘ f) := by
  simp [modifyChild, List.modify_modify_eq]

/-- Two edits that agree on the child they change make the same element. -/
theorem modifyChild_congr {e x : Element} {i : Nat} (h : e.child? i = some x)
    {f g : Element → Element} (hfg : f x = g x) : e.modifyChild i f = e.modifyChild i g := by
  simp only [modifyChild, mk.injEq, true_and]
  apply List.ext_getElem?
  intro m
  by_cases hm : i = m
  · subst hm; simp [List.getElem?_modify, show e.children[i]? = some x from h, hfg]
  · simp [List.getElem?_modify, hm]

theorem child?_modifyChild_self (e : Element) (i : Nat) (f : Element → Element) :
    (e.modifyChild i f).child? i = (e.child? i).map f := by
  simp [child?, modifyChild]

theorem child?_modifyChild_ne (e : Element) {i j : Nat} (f : Element → Element) (h : i ≠ j) :
    (e.modifyChild i f).child? j = e.child? j := by
  simp [child?, modifyChild, List.getElem?_modify_ne _ _ h]

theorem modifyAt_append (d : Element) (p q : Path) (f : Element → Element) :
    d.modifyAt (p ++ q) f = d.modifyAt p (·.modifyAt q f) := by
  induction p generalizing d with
  | nil => rfl
  | cons i p ih => simp only [List.cons_append, modifyAt_cons, ih]

/-- **Two edits at one address are one edit there.** -/
theorem modifyAt_modifyAt (d : Element) (p : Path) (f g : Element → Element) :
    (d.modifyAt p f).modifyAt p g = d.modifyAt p (g ∘ f) := by
  induction p generalizing d with
  | nil => rfl
  | cons i p ih => simp only [modifyAt_cons, modifyChild_modifyChild, Function.comp_def, ih]

theorem modifyAt_congr {d x : Element} {p : Path} (h : d.getAt? p = some x)
    {f g : Element → Element} (hfg : f x = g x) : d.modifyAt p f = d.modifyAt p g := by
  induction p generalizing d with
  | nil => simp only [getAt?_nil, Option.some.injEq] at h; subst h; exact hfg
  | cons i p ih =>
    simp only [getAt?_cons, Option.bind_eq_some] at h
    obtain ⟨c, hc, hx⟩ := h
    exact modifyChild_congr hc (ih hx)

theorem modifyChild_eq_self {e x : Element} {i : Nat} (h : e.child? i = some x)
    {f : Element → Element} (hf : f x = x) : e.modifyChild i f = e := by
  rw [modifyChild_congr h (g := id) hf]
  cases e; simp [modifyChild]

/-- An edit that fixes the element it reaches changes nothing. -/
theorem modifyAt_eq_self {d x : Element} {p : Path} (h : d.getAt? p = some x)
    {f : Element → Element} (hf : f x = x) : d.modifyAt p f = d := by
  induction p generalizing d with
  | nil => simp only [getAt?_nil, Option.some.injEq] at h; subst h; exact hf
  | cons i p ih =>
    simp only [getAt?_cons, Option.bind_eq_some] at h
    obtain ⟨c, hc, hx⟩ := h
    exact modifyChild_eq_self hc (ih hx)

/-- **Reading back at the address just changed.** -/
theorem getAt?_modifyAt_self (e : Element) (p : Path) (f : Element → Element) :
    (e.modifyAt p f).getAt? p = (e.getAt? p).map f := by
  induction p generalizing e with
  | nil => rfl
  | cons i p ih =>
    rw [modifyAt_cons, getAt?_cons, getAt?_cons, child?_modifyChild_self]
    cases e.child? i <;> simp [ih]

/-- **A change at one address leaves every address off its branch alone**: the frame
condition of an in-place edit.  `q` is off the branch of `p` when neither is a prefix of the
other. -/
theorem getAt?_modifyAt_of_not_prefix (e : Element) {p q : Path} (f : Element → Element)
    (hpq : ¬ p <+: q) (hqp : ¬ q <+: p) : (e.modifyAt p f).getAt? q = e.getAt? q := by
  induction p generalizing e q with
  | nil => exact absurd (List.nil_prefix) hpq
  | cons i p ih =>
    cases q with
    | nil => exact absurd (List.nil_prefix) hqp
    | cons j q =>
      rw [modifyAt_cons, getAt?_cons, getAt?_cons]
      by_cases hij : i = j
      · subst hij
        rw [child?_modifyChild_self]
        cases e.child? i with
        | none => rfl
        | some c =>
          exact ih c (fun h => hpq (List.prefix_cons_inj i |>.mpr h))
            (fun h => hqp (List.prefix_cons_inj i |>.mpr h))
      · rw [child?_modifyChild_ne _ _ hij]

/-! ## 3. Finding, adding and removing by address -/

/-- `x.find(tag)` for the element `x` at address `p`, as an address. -/
def findAt (d : Element) (p : Path) (tag : String) : Option Path :=
  (d.getAt? p).bind fun x => (x.find tag).map (p ++ [·])

/-- `x.findall(tag)` for the element `x` at address `p`, as addresses. -/
def findallAt (d : Element) (p : Path) (tag : String) : List Path :=
  ((d.getAt? p).map fun x => (x.findall tag).map (p ++ [·])).getD []

/-- `ElementTree.SubElement(parent, tag, attrib)` for the parent at an address, returning the
new child's address.  Called on `None`, the result of a failed `find`, it raises
`AttributeError`. -/
def subElementAt (d : Element) (parent : Option Path) (tag : String)
    (attrib : List (String × String)) : Except PyError (Element × Path) :=
  match parent.bind fun p => (d.getAt? p).map (p, ·) with
  | some (p, x) => .ok (d.modifyAt p (·.subElement tag attrib), p ++ [x.children.length])
  | none => .error .attributeError

/-- `parent.remove(ref)` for the parent at an address.  ElementTree first asserts that `ref` is
an element, which `None` is not; `list.remove` then looks for that very object among the
parent's children, and raises `ValueError` when it is not one of them. -/
def removeAt (d : Element) (parent : Path) : Option Path → Except PyError Element
  | none => .error .assertionError
  | some r =>
    match r.getLast? with
    | some i =>
      if r = parent ++ [i] ∧ (d.getAt? r).isSome then .ok (d.modifyAt parent (·.removeChild i))
      else .error .valueError
    | none => .error .valueError

theorem find_eq_none (e : Element) (tag : String) :
    e.find tag = none ↔ ∀ c ∈ e.children, c.tag ≠ tag := by
  simp [find, findall, List.head?_eq_none_iff, positions_eq_nil]

/-- What `find` returns is a child with that tag. -/
theorem child?_of_find {e : Element} {tag : String} {i : Nat} (h : e.find tag = some i) :
    ∃ c, e.child? i = some c ∧ c.tag = tag := by
  simp only [find, findall, List.head?_eq_getElem?] at h
  have hb := bind_getElem?_positions (·.tag == tag) e.children 0
  rw [h, Option.some_bind] at hb
  have hlen : 0 < (e.children.filter (·.tag == tag)).length := by
    rw [← length_positions]; exact (List.getElem?_eq_some_iff.mp h).1
  have hc := List.mem_filter.mp (List.getElem_mem hlen)
  exact ⟨_, hb.trans (List.getElem?_eq_getElem hlen), by simpa using hc.2⟩

/-- `e.find(tag)` is the first child with that tag. -/
theorem bind_child?_find (e : Element) (t : String) :
    (e.find t).bind e.child? = e.children.find? (·.tag == t) := by
  have h := bind_getElem?_positions (·.tag == t) e.children 0
  rw [← List.head?_eq_getElem?, ← List.head?_eq_getElem?, List.filter_head?] at h
  exact h

theorem find_isSome_iff (e : Element) (t : String) :
    (e.find t).isSome ↔ (e.children.find? (·.tag == t)).isSome := by
  rw [← bind_child?_find]
  cases h : e.find t with
  | none => simp
  | some i =>
    obtain ⟨c, hc, -⟩ := child?_of_find h
    simp [hc]

/-- An edit that keeps every tag moves no `find`. -/
theorem find_modifyChild (e : Element) (i : Nat) {f : Element → Element}
    (hf : ∀ x, (f x).tag = x.tag) (t : String) : (e.modifyChild i f).find t = e.find t := by
  simp only [find, findall, modifyChild,
    positions_modify (fun x : Element => x.tag == t) f e.children i (fun a _ => by simp [hf])]

theorem find_subElement_self {e : Element} {t : String} (h : e.find t = none)
    (a : List (String × String)) : (e.subElement t a).find t = some e.children.length := by
  have hnil : positions (·.tag == t) e.children = [] := by simpa [find, findall] using h
  simp [find, findall, subElement, positions_append_singleton, hnil]

theorem child?_subElement_length (e : Element) (t : String) (a : List (String × String)) :
    (e.subElement t a).child? e.children.length = some ⟨t, a, none, []⟩ := by
  simp [child?, subElement]

/-- Editing the child just appended is appending the edited child. -/
theorem subElement_modifyChild_length (e : Element) (t : String) (a : List (String × String))
    (f : Element → Element) : (e.subElement t a).modifyChild e.children.length f =
      { e with children := e.children ++ [f ⟨t, a, none, []⟩] } := by
  simp [subElement, modifyChild, modify_append_length]

theorem getAt?_append (d : Element) (p q : Path) :
    d.getAt? (p ++ q) = (d.getAt? p).bind (·.getAt? q) := by
  induction p generalizing d with
  | nil => rfl
  | cons i p ih => cases h : d.child? i <;> simp [h, ih]

theorem removeAt_child {d x : Element} {parent : Path} {i : Nat}
    (h : d.getAt? (parent ++ [i]) = some x) :
    removeAt d parent (some (parent ++ [i])) = .ok (d.modifyAt parent (·.removeChild i)) := by
  simp [removeAt, h]

theorem getAt?_of_mem_findallAt {d x : Element} {p q : Path} (hx : d.getAt? p = some x)
    {t : String} (hq : q ∈ d.findallAt p t) :
    ∃ c ∈ x.children.filter (·.tag == t), d.getAt? q = some c := by
  simp only [findallAt, hx, Option.map_some', Option.getD_some, findall, List.mem_map] at hq
  obtain ⟨j, hj, rfl⟩ := hq
  simpa [getAt?_append, hx, child?] using exists_of_mem_positions _ hj

theorem map_bind_getAt?_findallAt {d x : Element} {p : Path} (hx : d.getAt? p = some x)
    (t : String) {β : Type} (g : Element → Option β) :
    (d.findallAt p t).map (fun q => (d.getAt? q).bind g) = (x.children.filter (·.tag == t)).map g := by
  simp [findallAt, hx, findall, getAt?_append, child?, ← map_bind_getElem?_positions]

theorem bind_getAt?_findAt (d : Element) (p : Path) (t : String) :
    (d.findAt p t).bind d.getAt? = (d.getAt? p).bind fun x => x.children.find? (·.tag == t) := by
  unfold findAt
  cases h : d.getAt? p with
  | none => rfl
  | some x => simp [h, getAt?_append, ← bind_child?_find, Option.bind_map, Function.comp_def]

/-! What the address-based lookups and additions return: a child's address below the parent's,
and the document edited at the parent. -/

theorem tag_modifyAt {f : Element → Element} (hf : ∀ x, (f x).tag = x.tag) (x : Element)
    (q : Path) : (x.modifyAt q f).tag = x.tag := by
  cases q <;> simp [hf]

theorem findAt_eq_some {d : Element} {p r : Path} {t : String} (h : d.findAt p t = some r) :
    ∃ k, r = p ++ [k] := by
  simp only [findAt, Option.bind_eq_some, Option.map_eq_some'] at h
  obtain ⟨_, _, k, _, rfl⟩ := h
  exact ⟨k, rfl⟩

theorem subElementAt_eq_ok {d d' : Element} {parent : Option Path} {t : String}
    {a : List (String × String)} {r : Path} (h : d.subElementAt parent t a = .ok (d', r)) :
    ∃ p, parent = some p ∧ d' = d.modifyAt p (·.subElement t a) ∧ ∃ k, r = p ++ [k] := by
  unfold subElementAt at h
  split at h
  · rename_i p x hpx
    cases h
    obtain ⟨p', hp', hx⟩ := Option.bind_eq_some.mp hpx
    obtain ⟨-, -, rfl, -⟩ := Option.map_eq_some'.mp hx
    exact ⟨p, hp', rfl, _, rfl⟩
  · cases h

/-- The address `SubElement` returns holds the new child. -/
theorem getAt?_of_subElementAt {d d' : Element} {parent : Option Path} {t : String}
    {a : List (String × String)} {r : Path} (h : d.subElementAt parent t a = .ok (d', r)) :
    d'.getAt? r = some ⟨t, a, none, []⟩ := by
  unfold subElementAt at h
  split at h
  · rename_i p x hpx
    cases h
    obtain ⟨p', -, hx⟩ := Option.bind_eq_some.mp hpx
    obtain ⟨x', hx', hpx'⟩ := Option.map_eq_some'.mp hx
    cases hpx'
    simp [getAt?_append, getAt?_modifyAt_self, hx', child?_subElement_length]
  · cases h

end Element

end LibvirtXml
