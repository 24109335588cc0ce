import DevRelay.Lib.Framing

/-!
# Tagged codes

Codes that are read from the left, by what may stand behind them.  A field ends at
its terminator, whatever follows.  A list has no length in front of it: each of its
entries begins with the tag of the list, and the list ends where something else
begins, so a rest that begins with the tag would be read as one more entry.
-/

namespace DevRelay.Lib

variable {α β γ δ ε : Type}

/-- Before a rest of the kind `next`, the code of a good value shows its `view`, and where
the code ends. -/
def Decodes (next : List α → Prop) (ok : γ → Prop) (code : γ → List α) (view : γ → δ) : Prop :=
  ∀ a b r s, ok a → ok b → next r → next s → code a ++ r = code b ++ s → view a = view b ∧ r = s

/-- Any rest. -/
def anyRest (_ : List α) : Prop := True

namespace Decodes

variable {next next' : List α → Prop} {ok : γ → Prop} {code code' : γ → List α} {view : γ → δ}
  {view' : γ → ε}

/-- The rest can be asked to be more special. -/
theorem mono (h : Decodes next ok code view) (hnext : ∀ r, next' r → next r) :
    Decodes next' ok code view :=
  fun a b r s ha hb hr hs heq => h a b r s ha hb (hnext r hr) (hnext s hs) heq

/-- What the view determines is shown as well. -/
theorem weaken (h : Decodes next ok code view)
    (hview : ∀ a b, ok a → ok b → view a = view b → view' a = view' b) :
    Decodes next ok code view' := by
  intro a b r s ha hb hr hs heq
  obtain ⟨hab, hrs⟩ := h a b r s ha hb hr hs heq
  exact ⟨hview a b ha hb hab, hrs⟩

/-- A code in a structure that has the value as a part. -/
theorem part (h : Decodes next ok code view) (ok' : β → Prop) (part : β → γ)
    (hok : ∀ b, ok' b → ok (part b)) :
    Decodes next ok' (fun b => code (part b)) (fun b => view (part b)) :=
  fun a b r s ha hb hr hs heq => h _ _ r s (hok a ha) (hok b hb) hr hs heq

/-- One code behind the other. -/
theorem append (h : Decodes next ok code view) (h' : Decodes next' ok code' view')
    (hnext : ∀ c r, ok c → next' r → next (code' c ++ r)) :
    Decodes next' ok (fun c => code c ++ code' c) (fun c => (view c, view' c)) := by
  intro a b r s ha hb hr hs heq
  rw [List.append_assoc, List.append_assoc] at heq
  obtain ⟨hview, hrest⟩ := h a b _ _ ha hb (hnext a r ha hr) (hnext b s hb hs) heq
  obtain ⟨hview', hrs⟩ := h' a b r s ha hb hr hs hrest
  exact ⟨Prod.ext hview hview', hrs⟩

/-- With nothing behind them, the codes are different where the views are. -/
theorem view_eq (h : Decodes next ok code view) {a b : γ} (ha : ok a) (hb : ok b) (hnil : next [])
    (heq : code a = code b) : view a = view b := by
  refine (h a b [] [] ha hb hnil hnil ?_).1
  rw [heq]

end Decodes

variable {z : α}

/-- A fixed number of terminated fields. -/
theorem decodes_frame (z : α) (ok : γ → Prop) (fields : γ → List (List α))
    (hlen : ∀ a b, (fields a).length = (fields b).length)
    (hfree : ∀ c, ok c → ∀ f ∈ fields c, z ∉ f) :
    Decodes anyRest ok (fun c => frame z (fields c)) fields := by
  intro a b r s ha hb _ _ heq
  have hread : ∀ xs ys : List (List α), xs.length = ys.length → (∀ f ∈ xs, z ∉ f) →
      (∀ f ∈ ys, z ∉ f) → frame z xs ++ r = frame z ys ++ s → xs = ys ∧ r = s := by
    intro xs
    induction xs with
    | nil =>
      intro ys hys _ _ h
      rw [List.eq_nil_of_length_eq_zero hys.symm] at h ⊢
      exact ⟨rfl, h⟩
    | cons f xs ih =>
      intro ys hys hxfree hyfree h
      cases ys with
      | nil => simp at hys
      | cons g ys =>
        rw [frame_cons, frame_cons, List.append_assoc, List.append_assoc] at h
        have hhead := append_terminator_inj (hxfree f List.mem_cons_self)
          (hyfree g List.mem_cons_self) h
        have htail := ih ys (Nat.succ.inj hys)
          (fun f hf => hxfree f (List.mem_cons_of_mem _ hf))
          (fun g hg => hyfree g (List.mem_cons_of_mem _ hg)) hhead.2
        exact ⟨by rw [hhead.1, htail.1], htail.2⟩
  exact hread _ _ (hlen a b) (hfree a ha) (hfree b hb) heq

/-! ## Entries behind a tag -/

/-- Nothing, or one of these words with its terminator. -/
def Opens (z : α) (words : List (List α)) (r : List α) : Prop :=
  r = [] ∨ ∃ w ∈ words, ∃ s, r = w ++ z :: s

theorem opens_nil (words : List (List α)) : Opens z words [] := Or.inl rfl

theorem Opens.mono {words words' : List (List α)} {r : List α} (h : Opens z words r)
    (hsub : ∀ w ∈ words, w ∈ words') : Opens z words' r := by
  rcases h with hnil | ⟨w, hw, s, hr⟩
  · exact Or.inl hnil
  · exact Or.inr ⟨w, hsub w hw, s, hr⟩

/-- A word that is not among them does not stand at the front. -/
theorem Opens.ne_append {words : List (List α)} {w r t : List α} (h : Opens z words r)
    (hw : z ∉ w) (hwords : ∀ v ∈ words, z ∉ v) (hnew : w ∉ words) : r ≠ w ++ z :: t := by
  intro heq
  rcases h with hnil | ⟨v, hv, s, hr⟩
  · rw [hnil] at heq
    exact absurd heq.symm (by simp)
  · have hvw := (append_terminator_inj (hwords v hv) hw (hr.symm.trans heq)).1
    exact hnew (hvw ▸ hv)

/-- An entry of the list with this tag. -/
def tagged (z : α) (w : List α) (code : γ → List α) (c : γ) : List α := w ++ z :: code c

/-- The rest behind a tag also stands behind the entries of its list. -/
theorem Opens.entries {words : List (List α)} {w r : List α} {code : γ → List α} (xs : List γ)
    (h : Opens z words r) : Opens z (w :: words) (xs.flatMap (tagged z w code) ++ r) := by
  cases xs with
  | nil => exact h.mono fun v hv => List.mem_cons_of_mem w hv
  | cons x xs =>
    refine Or.inr ⟨w, List.mem_cons_self, code x ++ (xs.flatMap (tagged z w code) ++ r), ?_⟩
    rw [List.flatMap_cons, tagged]
    simp only [List.append_assoc, List.cons_append]

section Tags

variable {words : List (List α)} {w : List α} {ok : γ → Prop} {code : γ → List α} {view : γ → δ}

/-- The entries of a list, when neither what is behind an entry's tag nor what is behind the
list begins with the tag. -/
theorem Decodes.entries (h : Decodes (Opens z (w :: words)) ok code view)
    (htags : ∀ v ∈ w :: words, z ∉ v) (hnew : w ∉ words) :
    Decodes (Opens z words) (fun xs : List γ => ∀ x ∈ xs, ok x)
      (fun xs => xs.flatMap (tagged z w code)) (fun xs => xs.map view) := by
  have hw := htags w List.mem_cons_self
  have hwords : ∀ v ∈ words, z ∉ v := fun v hv => htags v (List.mem_cons_of_mem w hv)
  intro xs ys r s hxs hys hr hs heq
  induction xs generalizing ys with
  | nil =>
    cases ys with
    | nil => exact ⟨rfl, heq⟩
    | cons y ys =>
      simp only [List.flatMap_nil, List.nil_append, List.flatMap_cons, tagged,
        List.append_assoc, List.cons_append] at heq
      exact absurd heq (hr.ne_append hw hwords hnew)
  | cons x xs ih =>
    cases ys with
    | nil =>
      simp only [List.flatMap_nil, List.nil_append, List.flatMap_cons, tagged,
        List.append_assoc, List.cons_append] at heq
      exact absurd heq.symm (hs.ne_append hw hwords hnew)
    | cons y ys =>
      simp only [List.flatMap_cons, tagged, List.append_assoc, List.cons_append] at heq
      have hentry := (List.cons.inj (List.append_cancel_left heq)).2
      obtain ⟨hview, hrest⟩ := h x y _ _ (hxs x List.mem_cons_self) (hys y List.mem_cons_self)
        (hr.entries xs) (hs.entries ys) hentry
      obtain ⟨htail, hrs⟩ := ih ys (fun x hx => hxs x (List.mem_cons_of_mem _ hx))
        (fun y hy => hys y (List.mem_cons_of_mem _ hy)) hrest
      exact ⟨congrArg₂ List.cons hview htail, hrs⟩

/-- An optional value is a list of at most one entry. -/
theorem Decodes.optional (h : Decodes (Opens z (w :: words)) ok code view)
    (htags : ∀ v ∈ w :: words, z ∉ v) (hnew : w ∉ words) :
    Decodes (Opens z words) (fun o : Option γ => ∀ x ∈ o, ok x)
      (fun o => o.toList.flatMap (tagged z w code)) (fun o => o.map view) := by
  have hlist := (h.entries htags hnew).part (fun o : Option γ => ∀ x ∈ o, ok x)
    Option.toList (fun o ho x hx => ho x (Option.mem_toList.mp hx))
  apply hlist.weaken
  intro o o' _ _ hview
  cases o <;> cases o' <;> simp_all

end Tags

/-! ## Groups of entries -/

/-- Groups of entries, with the tags `words` in front of what the tags `after` open. -/
structure Groups (z : α) (words after : List (List α)) (ok : γ → Prop) (code : γ → List α)
    (view : γ → δ) : Prop where
  decodes : Decodes (Opens z after) ok code view
  opens : ∀ c r, Opens z after r → Opens z words (code c ++ r)

namespace Groups

variable {words after : List (List α)} {w : List α} {ok : γ → Prop} {code : γ → List α}
  {view : γ → δ} {okEntry : β → Prop} {entry : β → List α} {viewEntry : β → ε}

theorem none : Groups z after after ok (fun _ => []) (fun _ => ()) where
  decodes _ _ _ _ _ _ _ _ heq := ⟨rfl, heq⟩
  opens _ _ hr := hr

/-- One more group in front. -/
theorem entries (hentry : Decodes (Opens z (w :: words)) okEntry entry viewEntry)
    (hrest : Groups z words after ok code view) (htags : ∀ v ∈ w :: words, z ∉ v)
    (hnew : w ∉ words) (list : γ → List β) (hok : ∀ c, ok c → ∀ x ∈ list c, okEntry x) :
    Groups z (w :: words) after ok
      (fun c => (list c).flatMap (tagged z w entry) ++ code c)
      (fun c => ((list c).map viewEntry, view c)) where
  decodes := ((hentry.entries htags hnew).part ok list hok).append hrest.decodes
    (fun c r _ hr => hrest.opens c r hr)
  opens c r hr := by
    rw [List.append_assoc]
    exact (hrest.opens c r hr).entries (list c)

/-- One more optional value in front. -/
theorem optional (hentry : Decodes (Opens z (w :: words)) okEntry entry viewEntry)
    (hrest : Groups z words after ok code view) (htags : ∀ v ∈ w :: words, z ∉ v)
    (hnew : w ∉ words) (value : γ → Option β) (hok : ∀ c, ok c → ∀ x ∈ value c, okEntry x) :
    Groups z (w :: words) after ok
      (fun c => (value c).toList.flatMap (tagged z w entry) ++ code c)
      (fun c => ((value c).map viewEntry, view c)) where
  decodes := ((hentry.optional htags hnew).part ok value hok).append hrest.decodes
    (fun c r _ hr => hrest.opens c r hr)
  opens c r hr := by
    rw [List.append_assoc]
    exact (hrest.opens c r hr).entries (value c).toList

end Groups

end DevRelay.Lib
