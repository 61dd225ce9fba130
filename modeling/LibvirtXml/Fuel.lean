/-
# The parser's fuel never decides its answer

`expat` reads a document in one pass and stops.  The model's readers are recursive functions
over the text, and those that loop carry a fuel bound so that Lean sees them stop: `elementWith`
gives `attributes` one more than the length of what is left, and `parse` gives `element` and
`misc` that length.  A fuel bound is only faithful if it is never what ends a run, so this module
proves that it is not.  Every reader consumes at least one character of what it reads
(`name_rest`, `reference_rest`, `attValue_rest`, `attributes_rest`, `skipComment_rest`,
`skipPI_rest`, `cdata_rest`, `elementWith_rest`, `content_rest`), so a reader given more fuel than
there are characters left answers the same whatever the fuel (`attributes_fuel`, `content_fuel`,
`element_fuel`, `misc_fuel`), and the bounds the parser chooses are as good as any larger one
(`readers_fuel_adequate`).
-/
import LibvirtXml.Markup

namespace LibvirtXml

namespace Markup

/-! ## 1. Every reader consumes what it reads -/

theorem length_dropWhile_le (p : Char → Bool) (l : List Char) : (l.dropWhile p).length ≤ l.length :=
  (List.dropWhile_suffix p).length_le

theorem name_rest {cs rest : List Char} {n : String} (h : name cs = .ok (n, rest)) :
    rest.length < cs.length := by
  cases cs with
  | nil => cases h
  | cons c cs =>
    simp only [name] at h
    split at h
    · cases h
      exact Nat.lt_succ_of_le (length_dropWhile_le _ cs)
    · cases h

theorem reference_rest {cs rest : List Char} {c : Char} (h : reference cs = .ok (c, rest)) :
    rest.length < cs.length := by
  unfold reference at h
  split at h
  · rename_i rest' hd
    split at h
    · cases h
      have := length_dropWhile_le (fun c => isNameChar c || c == '#') cs
      rw [hd] at this
      exact Nat.lt_of_lt_of_le (Nat.lt_succ_self _) this
    · cases h
  · cases h

theorem attValue_rest (q : Char) : ∀ (cs : List Char) (ref : Option (List Char))
    {v rest : List Char}, attValue q cs ref = .ok (v, rest) → rest.length < cs.length
  | [], _, _, _, h => by cases h
  | c :: cs, none, v, rest, h => by
    unfold attValue at h
    split_ifs at h
    · cases h; exact Nat.lt_succ_self _
    · exact Nat.lt_succ_of_lt (attValue_rest q cs _ h)
    all_goals
      obtain ⟨⟨v', rest'⟩, hv, he⟩ := map_eq_ok h
      cases he
      exact Nat.lt_succ_of_lt (attValue_rest q cs none hv)
  | c :: cs, some r, v, rest, h => by
    unfold attValue at h
    split_ifs at h
    · split at h
      · obtain ⟨⟨v', rest'⟩, hv, he⟩ := map_eq_ok h
        cases he
        exact Nat.lt_succ_of_lt (attValue_rest q cs none hv)
      · cases h
    · exact Nat.lt_succ_of_lt (attValue_rest q cs _ h)

theorem lt_of_dropWhile_eq_cons {p : Char → Bool} {l rest : List Char} {c : Char}
    (h : l.dropWhile p = c :: rest) : rest.length < l.length := by
  have := length_dropWhile_le p l
  rw [h, List.length_cons] at this
  omega

theorem attributes_rest : ∀ (fuel : Nat) (attrs : List (String × String)) {cs : List Char}
    {r : (List (String × String) × Bool) × List Char},
    attributes fuel attrs cs = .ok r → r.2.length < cs.length
  | 0, _, _, _, h => by cases h
  | fuel + 1, attrs, cs, r, h => by
    unfold attributes at h
    split at h
    · cases h; exact lt_of_dropWhile_eq_cons ‹_›
    · cases h
      have := lt_of_dropWhile_eq_cons ‹_›
      simp only [List.length_cons] at this ⊢
      omega
    · cases h
    · -- an attribute: white space, a name, `=`, a quoted value, then the rest of the tag
      have h₀ := length_dropWhile_le isSpace cs
      split_ifs at h
      split at h
      · cases h
      · rename_i n rest₁ hname
        have h₁ := name_rest hname
        split at h
        · have h₂ := lt_of_dropWhile_eq_cons ‹_›
          split at h
          · have h₃ := lt_of_dropWhile_eq_cons ‹_›
            split_ifs at h with hq hdup <;> split at h
            iterate 3 cases h
            have h₄ := attValue_rest _ _ _ ‹_›
            have h₅ := attributes_rest fuel _ h
            omega
          · cases h
        · cases h

theorem skipComment_rest {cs rest : List Char} (h : skipComment cs = .ok rest) :
    rest.length < cs.length := by
  induction cs using skipComment.induct with
  | case1 r => cases h; simp only [List.length_cons]; omega
  | case2 t hend => rw [skipComment.eq_2 t hend] at h; cases h
  | case3 c cs hend hdash hc ih =>
    rw [skipComment.eq_3 c cs hend hdash, if_pos hc] at h
    exact Nat.lt_succ_of_lt (ih h)
  | case4 c cs hend hdash hc => rw [skipComment.eq_3 c cs hend hdash, if_neg hc] at h; cases h
  | case5 => cases h

theorem skipPI_rest {cs rest : List Char} (h : skipPI cs = .ok rest) :
    rest.length < cs.length := by
  induction cs using skipPI.induct with
  | case1 r => cases h; simp only [List.length_cons]; omega
  | case2 c cs hend hc ih =>
    rw [skipPI.eq_2 c cs hend, if_pos hc] at h
    exact Nat.lt_succ_of_lt (ih h)
  | case3 c cs hend hc => rw [skipPI.eq_2 c cs hend, if_neg hc] at h; cases h
  | case4 => cases h

theorem cdata_rest {cs t rest : List Char} (h : cdata cs = .ok (t, rest)) :
    rest.length < cs.length := by
  induction cs using cdata.induct generalizing t with
  | case1 r => cases h; simp only [List.length_cons]; omega
  | case2 c cs hend hc ih =>
    rw [cdata.eq_2 c cs hend, if_pos hc] at h
    obtain ⟨⟨t', rest'⟩, ht, he⟩ := map_eq_ok h
    cases he
    exact Nat.lt_succ_of_lt (ih ht)
  | case3 c cs hend hc => rw [cdata.eq_2 c cs hend, if_neg hc] at h; cases h
  | case4 => cases h

/-- What follows the markup an `Opening` names. -/
def Opening.rest : Opening → List Char
  | .endTag r | .comment r | .cdataSection r | .pi r | .child r => r

theorem length_opening_rest {cs : List Char} {o : Opening} (h : opening cs = o) :
    o.rest.length ≤ cs.length := by
  subst h
  unfold opening
  split
  · exact Nat.le_succ _
  · exact Nat.le_succ _
  · split_ifs <;> simp only [Opening.rest, List.length_drop, List.length_cons] <;> omega
  · exact Nat.le_refl _

/-! ## 2. Elements and content consume what they read -/

/-- An element's reader consumes its text when its content reader does. -/
theorem elementWith_rest {content : String → Option (List Char) → List Element → List Char →
      Step (Option (List Char) × List Element)}
    (hc : ∀ tag cs r, content tag none [] cs = .ok r → r.2.length < cs.length)
    {cs rest : List Char} {e : Element} (h : elementWith content cs = .ok (e, rest)) :
    rest.length < cs.length := by
  unfold elementWith at h
  split at h
  · cases h
  · have h₁ := name_rest ‹_›
    split at h
    · cases h
    · cases h
      have := attributes_rest _ _ ‹_›
      simp only at this
      omega
    · have h₂ := attributes_rest _ _ ‹_›
      split at h
      · cases h
      · cases h
        have := hc _ _ _ ‹_›
        simp only at h₂ this
        omega

/-- **The content reader consumes its text**, by induction on its fuel. -/
theorem content_rest : ∀ (fuel : Nat) (tag : String) (text : Option (List Char))
    (children : List Element) {cs : List Char}
    {r : (Option (List Char) × List Element) × List Char},
    content fuel tag text children cs = .ok r → r.2.length < cs.length
  | 0, _, _, _, _, _, h => by cases h
  | _ + 1, _, _, _, [], _, h => by cases h
  | fuel + 1, tag, text, children, c :: rest, r, h => by
    have ih : ∀ {text children cs}, content fuel tag text children cs = .ok r →
        cs.length ≤ rest.length → r.2.length < (c :: rest).length := fun h hl =>
      Nat.lt_of_lt_of_le (content_rest fuel tag _ _ h) (Nat.le_succ_of_le hl)
    unfold content at h
    split_ifs at h with hlt hamp hcd hx
    · split at h
      · -- the end tag
        rename_i r₁ ho
        have h₁ : r₁.length ≤ rest.length := length_opening_rest ho
        split at h
        · cases h
        · have h₂ := name_rest ‹_›
          split at h
          · split_ifs at h
            cases h
            have := lt_of_dropWhile_eq_cons ‹_›
            simp only [List.length_cons]
            omega
          · cases h
      · rename_i r₁ ho
        have h₁ : r₁.length ≤ rest.length := length_opening_rest ho
        split at h
        · cases h
        · exact ih h (by have := skipComment_rest ‹_›; omega)
      · rename_i r₁ ho
        have h₁ : r₁.length ≤ rest.length := length_opening_rest ho
        split at h
        · cases h
        · exact ih h (by have := cdata_rest ‹_›; omega)
      · rename_i r₁ ho
        have h₁ : r₁.length ≤ rest.length := length_opening_rest ho
        split at h
        · cases h
        · have h₂ := name_rest ‹_›
          split at h
          · cases h
          · exact ih h (by have := skipPI_rest ‹_›; omega)
      · -- a child element
        rename_i r₁ ho
        have h₁ : r₁.length ≤ rest.length := length_opening_rest ho
        split at h
        · cases h
        · have := elementWith_rest (fun _ _ _ hr => content_rest fuel _ none [] hr) ‹_›
          exact ih h (by omega)
    · split at h
      · cases h
      · exact ih h (by have := reference_rest ‹_›; omega)
    · exact ih h (Nat.le_refl _)

/-! ## 3. More fuel than text gives the same answer -/

theorem attributes_fuel : ∀ {n m : Nat} (attrs : List (String × String)) {cs : List Char},
    cs.length < n → cs.length < m → attributes n attrs cs = attributes m attrs cs
  | 0, _, _, _, h, _ => absurd h (Nat.not_lt_zero _)
  | _ + 1, 0, _, _, _, h => absurd h (Nat.not_lt_zero _)
  | n + 1, m + 1, attrs, cs, hn, hm => by
    have h₀ := length_dropWhile_le isSpace cs
    unfold attributes
    split
    iterate 3 rfl
    split_ifs
    · rfl
    · split
      · rfl
      · have h₁ := name_rest ‹_›
        split
        · have h₂ := lt_of_dropWhile_eq_cons ‹_›
          split
          · have h₃ := lt_of_dropWhile_eq_cons ‹_›
            split_ifs
            · rfl
            · split
              · rfl
              · have h₄ := attValue_rest _ _ _ ‹_›
                exact attributes_fuel _ (by omega) (by omega)
            · rfl
          · rfl
        · rfl

/-- An element's reader answers the same with two content readers that agree on every text
shorter than the element's by at least its name and the `>` of its start tag. -/
theorem elementWith_congr (f g : String → Option (List Char) → List Element → List Char →
      Step (Option (List Char) × List Element)) {cs : List Char}
    (hfg : ∀ tag rest, rest.length + 1 < cs.length → f tag none [] rest = g tag none [] rest) :
    elementWith f cs = elementWith g cs := by
  unfold elementWith
  split
  · rfl
  · have h₁ := name_rest ‹_›
    split
    · rfl
    · rfl
    · have h₂ := attributes_rest _ _ ‹_›
      simp only at h₂
      rw [hfg _ _ (by omega)]

/-- **The content reader's fuel is never what ends it**: with more fuel than characters left,
any two fuels give the same answer, by induction on the fuel. -/
theorem content_fuel : ∀ {n m : Nat} (tag : String) (text : Option (List Char))
    (children : List Element) {cs : List Char}, cs.length < n → cs.length < m →
      content n tag text children cs = content m tag text children cs
  | 0, _, _, _, _, _, h, _ => absurd h (Nat.not_lt_zero _)
  | _ + 1, 0, _, _, _, _, _, h => absurd h (Nat.not_lt_zero _)
  | _ + 1, _ + 1, _, _, _, [], _, _ => rfl
  | n + 1, m + 1, tag, text, children, c :: rest, hn, hm => by
    simp only [List.length_cons] at hn hm
    have ih : ∀ tag text children {cs : List Char}, cs.length ≤ rest.length →
        content n tag text children cs = content m tag text children cs := fun _ _ _ _ hl =>
      content_fuel _ _ _ (by omega) (by omega)
    unfold content
    split_ifs
    · split
      · rfl
      · rename_i r₁ ho
        have h₁ : r₁.length ≤ rest.length := length_opening_rest ho
        split
        · rfl
        · exact ih _ _ _ (by have := skipComment_rest ‹_›; omega)
      · rename_i r₁ ho
        have h₁ : r₁.length ≤ rest.length := length_opening_rest ho
        split
        · rfl
        · exact ih _ _ _ (by have := cdata_rest ‹_›; omega)
      · rename_i r₁ ho
        have h₁ : r₁.length ≤ rest.length := length_opening_rest ho
        split
        · rfl
        · have h₂ := name_rest ‹_›
          split
          · rfl
          · exact ih _ _ _ (by have := skipPI_rest ‹_›; omega)
      · -- a child element: its own content is read with the same two fuels
        rename_i r₁ ho
        have h₁ : r₁.length ≤ rest.length := length_opening_rest ho
        rw [elementWith_congr (content n) (content m) fun _ _ hl => ih _ _ _ (by omega)]
        split
        · rfl
        · have := elementWith_rest (fun _ _ _ hr => content_rest m _ none [] hr) ‹_›
          exact ih _ _ _ (by omega)
    · split
      · rfl
      · exact ih _ _ _ (by have := reference_rest ‹_›; omega)
    · rfl
    · exact ih _ _ _ (Nat.le_refl _)
    · rfl

theorem element_fuel : ∀ {n m : Nat} {cs : List Char}, cs.length ≤ n → cs.length ≤ m →
    element n cs = element m cs
  | 0, 0, _, _, _ => rfl
  | 0, _ + 1, [], _, _ => rfl
  | _ + 1, 0, [], _, _ => rfl
  | 0, _, _ :: _, h, _ => absurd h (Nat.not_succ_le_zero _)
  | _ + 1, 0, _ :: _, _, h => absurd h (Nat.not_succ_le_zero _)
  | _ + 1, _ + 1, _, hn, hm =>
    elementWith_congr _ _ fun _ _ hl => content_fuel _ _ _ (by omega) (by omega)

theorem misc_fuel : ∀ {n m : Nat} {cs : List Char}, cs.length ≤ n → cs.length ≤ m →
    misc n cs = misc m cs
  | 0, 0, _, _, _ => rfl
  | 0, _ + 1, [], _, _ => rfl
  | _ + 1, 0, [], _, _ => rfl
  | 0, _, _ :: _, h, _ => absurd h (Nat.not_succ_le_zero _)
  | _ + 1, 0, _ :: _, _, h => absurd h (Nat.not_succ_le_zero _)
  | n + 1, m + 1, cs, hn, hm => by
    unfold misc
    split
    · have h₁ := lt_of_dropWhile_eq_cons ‹_›
      simp only [List.length_cons] at h₁
      split
      · rfl
      · have := skipComment_rest ‹_›
        exact misc_fuel (by omega) (by omega)
    · have h₁ := lt_of_dropWhile_eq_cons ‹_›
      simp only [List.length_cons] at h₁
      split
      · rfl
      · have h₂ := name_rest ‹_›
        split
        · rfl
        · have := skipPI_rest ‹_›
          exact misc_fuel (by omega) (by omega)
    · rfl

/-- **The parser's fuel bounds never decide its answer**: from the bound the parser gives each
reader that carries fuel (one more than the text's length to `attributes`, in `elementWith`; the
text's length to `element` and `misc`, in `parse`), any more fuel gives the same answer, errors
included. -/
theorem readers_fuel_adequate :
    (∀ (n : Nat) (attrs : List (String × String)) (cs : List Char), cs.length < n →
      attributes n attrs cs = attributes (cs.length + 1) attrs cs) ∧
    (∀ (n : Nat) (cs : List Char), cs.length ≤ n → element n cs = element cs.length cs) ∧
    (∀ (n : Nat) (cs : List Char), cs.length ≤ n → misc n cs = misc cs.length cs) :=
  ⟨fun _ _ _ h => attributes_fuel _ h (Nat.lt_succ_self _),
    fun _ _ h => element_fuel h (Nat.le_refl _), fun _ _ h => misc_fuel h (Nat.le_refl _)⟩

end Markup

end LibvirtXml
