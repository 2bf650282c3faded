import Mathlib.Data.List.Forall2
import SchemaReview.Ddl.ForeignKey
import SchemaReview.Proofs.Ddl.Name

/-!
# Proofs.Ddl.ForeignKey — where REFERENCES clauses stand and what they name

* `Match.RefersAt m table columns c`: the match ends with a `REFERENCES` clause that begins at `c`.
  Both the pattern for references and the one for table-level foreign keys find such matches
  (`refersAt_of_reference`, `exists_refersAt_of_foreignKey`).
* `RefersAt.spelled`: what stands at such a position is the keyword, white space and the name that was
  captured.  So two clauses at the same place that go on to a cascading delete name the same table,
  even when they were found in different pieces of the text (`RefersAt.groupText_eq`).
* `referenceWord`: the keyword as a whole word.  It stands wherever a clause begins, unless a word ends
  there (`exists_referenceWord`).
-/

namespace SchemaReview

open Text

namespace Pattern

/-! ## Ways through a pattern -/

theorem takes_append {p q : Pattern} {c e : Cursor} {g i : Captures} :
    (p ++ q).Takes c g e i ↔ ∃ d h, p.Takes c g d h ∧ q.Takes d h e i := by
  constructor
  · rintro (⟨_⟩ | ⟨_⟩ | ⟨hp, hq⟩)
    exact ⟨_, _, hp, hq⟩
  · rintro ⟨d, h, hp, hq⟩
    exact .seq hp hq

/-- The pattern remembers something under the number. -/
def remembers (n : Nat) : Pattern → Bool
  | .group i p => i == n || p.remembers n
  | .seq p q | .alt p q => p.remembers n || q.remembers n
  | .star p => p.remembers n
  | _ => false

theorem Takes.lookup_eq {p : Pattern} {c d : Cursor} {g h : Captures} (hp : p.Takes c g d h)
    {n : Nat} (hn : p.remembers n = false) : h.lookup n = g.lookup n := by
  induction hp with
  | empty | one | many | starStop | wordEdge | textStart | textEnd => rfl
  | seq _ _ ihp ihq =>
    rw [remembers, Bool.or_eq_false_iff] at hn
    rw [ihq hn.2, ihp hn.1]
  | altLeft _ ih =>
    rw [remembers, Bool.or_eq_false_iff] at hn
    exact ih hn.1
  | altRight _ ih =>
    rw [remembers, Bool.or_eq_false_iff] at hn
    exact ih hn.2
  | starStep _ _ ihp ihrest => rw [ihrest hn, ihp hn]
  | @group i _ _ _ _ _ _ ih =>
    rw [remembers, Bool.or_eq_false_iff] at hn
    have hne : (n == i) = false :=
      beq_eq_false_iff_ne.mpr (Ne.symm (beq_eq_false_iff_ne.mp hn.1))
    rw [List.lookup_cons, hne]
    exact ih hn.2

/-- Every way through the pattern takes a character of the class. -/
def spends (cls : CharClass) : Pattern → Bool
  | .one cls' => cls' == cls
  | .seq p q => p.spends cls || q.spends cls
  | .alt p q => p.spends cls && q.spends cls
  | .group _ p => p.spends cls
  | _ => false

theorem Takes.exists_of_spends {p : Pattern} {c d : Cursor} {g h : Captures} (hp : p.Takes c g d h)
    (cls : CharClass) (hcls : p.spends cls = true) :
    ∃ w, c.Passes w d ∧ ∃ x ∈ w, cls.holds x = true := by
  induction hp with
  | empty | many | starStop | starStep | wordEdge | textStart | textEnd => cases hcls
  | @one cls' c g x xs hrest hx =>
    obtain rfl : cls' = cls := by simpa [spends] using hcls
    exact ⟨[x], .past hrest, x, List.mem_singleton_self x, hx⟩
  | seq hp hq ihp ihq =>
    rw [spends, Bool.or_eq_true] at hcls
    rcases hcls with hcls | hcls
    · obtain ⟨v, hv, x, hx, hholds⟩ := ihp hcls
      obtain ⟨w, hw, -⟩ := hq.exists_passes
      exact ⟨v ++ w, hv.trans hw, x, List.mem_append_left w hx, hholds⟩
    · obtain ⟨v, hv, -⟩ := hp.exists_passes
      obtain ⟨w, hw, x, hx, hholds⟩ := ihq hcls
      exact ⟨v ++ w, hv.trans hw, x, List.mem_append_right v hx, hholds⟩
  | altLeft _ ih =>
    rw [spends, Bool.and_eq_true] at hcls
    exact ih hcls.1
  | altRight _ ih =>
    rw [spends, Bool.and_eq_true] at hcls
    exact ih hcls.2
  | group _ ih => exact ih hcls

theorem exists_of_takes_gap {c d : Cursor} {g h : Captures} (hp : gap.Takes c g d h) :
    ∃ w, c.Passes w d ∧ w ≠ [] ∧ ∀ x ∈ w, isBlank x = true := by
  cases hp with
  | seq hone hmany =>
    cases hone with
    | one hrest hx =>
      cases hmany with
      | many hw hall =>
        exact ⟨_, (Cursor.Passes.past hrest).trans hw, by simp, List.forall_mem_cons.mpr ⟨hx, hall⟩⟩

/-- A parenthesized list ends at its first closing parenthesis. -/
theorem exists_of_takes_parenthesized {n : Nat} {c d : Cursor} {g h : Captures}
    (hp : (parenthesized n).Takes c g d h) : ∃ w, c.Passes (w ++ [')']) d ∧ ')' ∉ w := by
  rw [parenthesized, takes_append] at hp
  obtain ⟨e, i, hlist, hclose⟩ := hp
  obtain ⟨w, hw, hstop⟩ := hlist.exists_passes
  cases hclose with
  | one hrest hx =>
    rw [holds_char_iff.mp hx] at hrest ⊢
    exact ⟨w, hw.trans (.past hrest), hstop ')' rfl⟩

/-! ## Keywords -/

/-- The text spells the keyword, in any case. -/
def Spells (keyword : String) (w : Text) : Prop :=
  List.Forall₂ (fun l x => (CharClass.letter l).holds x = true) keyword.toList w

theorem exists_of_takes_letters {cs : List Char} {c d : Cursor} {g h : Captures}
    (hp : (letters cs).Takes c g d h) :
    ∃ w, c.Passes w d ∧ List.Forall₂ (fun l x => (CharClass.letter l).holds x = true) cs w := by
  induction cs generalizing c g with
  | nil =>
    cases hp
    exact ⟨[], .refl _, .nil⟩
  | cons l cs ih =>
    rw [letters, takes_append] at hp
    obtain ⟨e, i, hone, hrest⟩ := hp
    cases hone with
    | one hc hx =>
      obtain ⟨w, hw, hall⟩ := ih hrest
      exact ⟨_, (Cursor.Passes.past hc).trans hw, .cons hx hall⟩

theorem run_letters_of_forall₂ {α : Type} {cs : List Char} {w : Text}
    (hw : List.Forall₂ (fun l x => (CharClass.letter l).holds x = true) cs w) (rest : Text)
    (before : Option Char) (offset : Nat) (g : Captures) (k : Continue α) :
    (letters cs).run ⟨before, offset, w ++ rest⟩ g k =
      k ⟨w.getLast?.or before, offset + byteSize w, rest⟩ g := by
  induction hw generalizing before offset with
  | nil => rfl
  | cons hx _ ih =>
    rw [letters, run_append, List.cons_append, run_one_of_holds hx, ih, getLast?_cons_or,
      byteSize_cons, Nat.add_assoc]

end Pattern

theorem toUpper_cases (x : Char) : x.toUpper = x ∨ ∃ n < 26, x = Char.ofNat (97 + n) := by
  unfold Char.toUpper
  split
  · rename_i h
    obtain ⟨hlo, hhi⟩ := h
    have hlo' : 97 ≤ x.toNat := hlo
    have hhi' : x.toNat ≤ 122 := hhi
    refine Or.inr ⟨x.toNat - 97, by omega, ?_⟩
    rw [Nat.add_sub_cancel' hlo', Char.ofNat_toNat]
  · exact Or.inl rfl

/-- Whatever stands for a letter of the alphabet is a word character. -/
theorem isWord_of_letter {l x : Char} (hl : isWord l.toUpper = true)
    (h : (CharClass.letter l).holds x = true) : isWord x = true := by
  have hsmall : ∀ n < 26, isWord (Char.ofNat (97 + n)) = true := by decide
  simp only [CharClass.holds, Bool.or_eq_true, Bool.and_eq_true, beq_iff_eq] at h
  rcases h with (h | h) | h
  · rcases toUpper_cases x with hx | ⟨n, hn, rfl⟩
    · rw [← h, hx] at hl
      exact hl
    · exact hsmall n hn
  · rw [h.2]
    decide +kernel
  · rw [h.2]
    decide +kernel

/-- What spells letters of the alphabet is made of word characters. -/
theorem isWord_of_forall₂_letter {cs : List Char} {w : Text}
    (hcs : ∀ l ∈ cs, isWord l.toUpper = true)
    (h : List.Forall₂ (fun l x => (CharClass.letter l).holds x = true) cs w) :
    ∀ x ∈ w, isWord x = true := by
  induction h with
  | nil => simp
  | cons hx _ ih =>
    rw [List.forall_mem_cons] at hcs ⊢
    exact ⟨isWord_of_letter hcs.1 hx, ih hcs.2⟩

/-- Keywords are made of letters, so what spells one is a word. -/
theorem isWord_of_spells {keyword : String} {w : Text} (h : Pattern.Spells keyword w)
    (hkeyword : keyword.toList.all (fun l => isWord l.toUpper) = true := by decide) :
    ∀ x ∈ w, isWord x = true :=
  isWord_of_forall₂_letter (List.all_eq_true.mp hkeyword) h

/-! ## Clauses -/

/-- The match ends with a `REFERENCES` clause that begins at the cursor; the table is remembered under
`table`, its columns under `columns`. -/
def Match.RefersAt (m : Match) (table columns : Nat) (c : Cursor) : Prop :=
  ∃ g, (Pattern.referenceTo table columns).run c g (fun d h => some ⟨m.start, d, h⟩) = some m

/-- The text begins with the keyword and white space, and goes on with `t`. -/
structure BeginsReference (rest t : Text) : Prop where
  exists_split : ∃ word blanks, rest = word ++ blanks ++ t ∧ Pattern.Spells "REFERENCES" word ∧
    blanks ≠ [] ∧ ∀ x ∈ blanks, isBlank x = true
  starts : ∃ x ∈ t.head?, isBlank x = false

theorem BeginsReference.byteSize_pos {rest t : Text} (h : BeginsReference rest t) :
    0 < byteSize rest := by
  obtain ⟨⟨word, blanks, hrest, -, hne, -⟩, -⟩ := h
  obtain ⟨b, bs, rfl⟩ := List.exists_cons_of_ne_nil hne
  have hpos := b.utf8Size_pos
  rw [hrest, byteSize_append, byteSize_append, byteSize_cons]
  omega

theorem BeginsReference.exists_isWord_head {rest t : Text} (h : BeginsReference rest t) :
    ∃ x ∈ rest.head?, isWord x = true := by
  obtain ⟨⟨word, blanks, rfl, hspells, -, -⟩, -⟩ := h
  have hall := isWord_of_spells hspells
  cases hspells with
  | cons => exact ⟨_, rfl, hall _ List.mem_cons_self⟩

theorem qualifiedName_of_isBlank {t : Text} (h : ∀ x ∈ t.head?, isBlank x = true) :
    qualifiedName t = [] := by
  have hempty : t.upToBlank = [] := by
    cases t with
    | nil => rfl
    | cons x xs => simp [upToBlank, h x rfl]
  rw [← qualifiedName_upToBlank, hempty]
  rfl

namespace Match.RefersAt

variable {m : Match} {table columns : Nat} {c : Cursor}

/-- What stands at a clause: the keyword, white space, and the name that was captured. -/
theorem spelled (h : m.RefersAt table columns c) (hne : table ≠ columns) :
    ∃ t, BeginsReference c.rest t ∧ m.groupText table = qualifiedName t ∧ m.stop.rest <:+ t := by
  obtain ⟨g, h⟩ := h
  -- the end of the clause, where anything is accepted
  set last : Pattern.Continue Match := fun d h =>
    Pattern.blanks.run d h fun e i =>
      (Pattern.opt (Pattern.parenthesized columns)).run e i fun e i => some ⟨m.start, e, i⟩
    with hlast
  have hrun : (Pattern.referenceTo table columns).run c g (fun d h => some ⟨m.start, d, h⟩) =
      (Pattern.keyword "REFERENCES").run c g fun d h => Pattern.gap.run d h fun e i =>
        (Pattern.qualifiedName table).run e i last := rfl
  have htotal : ∀ d h, (last d h).isSome = true := by
    intro d h
    rw [hlast]
    simp only [Pattern.blanks]
    rw [Pattern.run_many_eq (Or.inl (Pattern.isSome_run_opt _ rfl))]
    exact Pattern.isSome_run_opt _ rfl
  rw [hrun] at h
  obtain ⟨d, i, hkeyword, h⟩ := Pattern.exists_of_run h
  obtain ⟨word, hword, hspells⟩ := Pattern.exists_of_takes_letters hkeyword
  obtain ⟨e, j, hgap, h⟩ := Pattern.exists_of_run h
  obtain ⟨blanks, hblanks, hne', hall⟩ := Pattern.exists_of_takes_gap hgap
  obtain ⟨f, capture, hname, htext, hnonempty⟩ := Pattern.exists_of_run_qualifiedName htotal h
  have hstarts : ∃ x ∈ e.rest.head?, isBlank x = false := by
    by_contra hnone
    refine hnonempty (qualifiedName_of_isBlank fun x hx => ?_)
    by_contra hx'
    exact hnone ⟨x, hx, by simpa using hx'⟩
  refine ⟨e.rest, ⟨⟨word, blanks, ?_, hspells, hne', hall⟩, hstarts⟩, ?_, ?_⟩
  · rw [hword.rest, hblanks.rest, List.append_assoc]
  · -- behind the name nothing is remembered under its number
    obtain ⟨f', i', hblanks', hname⟩ := Pattern.exists_of_run hname
    obtain ⟨f'', i'', hlist, hname⟩ := Pattern.exists_of_run hname
    have hremembers : (Pattern.opt (Pattern.parenthesized columns)).remembers table = false := by
      have hne'' : (columns == table) = false := by simpa using Ne.symm hne
      simp [Pattern.opt, Pattern.parenthesized, Pattern.remembers, HAppend.hAppend, Append.append,
        Pattern.char, Pattern.oneOf, Pattern.upTo, hne'']
    have hcaptures : m.captures = i'' := by
      rw [Option.some.injEq] at hname
      rw [← hname]
    rw [Match.groupText, Match.group?, hcaptures, hlist.lookup_eq hremembers,
      hblanks'.lookup_eq rfl, List.lookup_cons_self, Option.map_some, Option.getD_some, htext]
  · obtain ⟨f', i', hrest, hm⟩ := Pattern.exists_of_run (p := Pattern.qualifiedName table ++
      Pattern.blanks ++ Pattern.opt (Pattern.parenthesized columns)) h
    obtain ⟨w, hw, -⟩ := hrest.exists_passes
    rw [Option.some.injEq] at hm
    rw [hw.rest, ← hm]
    exact List.suffix_append w f'.rest

theorem exists_passes (h : m.RefersAt table columns c) : ∃ w, c.Passes w m.stop := by
  obtain ⟨g, h⟩ := h
  obtain ⟨d, i, htakes, hm⟩ := Pattern.exists_of_run h
  obtain ⟨w, hw, -⟩ := htakes.exists_passes
  rw [Option.some.injEq] at hm
  exact ⟨w, by rwa [← hm]⟩

/-- A clause is not empty. -/
theorem offset_lt (h : m.RefersAt table columns c) (hne : table ≠ columns) :
    c.offset < m.stop.offset := by
  obtain ⟨w, hw⟩ := h.exists_passes
  obtain ⟨t, ⟨⟨word, blanks, hrest, -, hblanks, -⟩, -⟩, -, z, rfl⟩ := h.spelled hne
  obtain ⟨b, bs, rfl⟩ := List.exists_cons_of_ne_nil hblanks
  have hpos := b.utf8Size_pos
  have hsize : byteSize c.rest = byteSize w + byteSize m.stop.rest := by
    rw [hw.rest, byteSize_append]
  simp only [hrest, byteSize_append, byteSize_cons] at hsize
  rw [hw.offset]
  omega

end Match.RefersAt

/-- A cascading delete is spelled with blanks between its words. -/
theorem exists_isBlank_of_beginsWithCascade {t : Text} (h : beginsWithCascade t = true) :
    ∃ b ∈ t, isBlank b = true := by
  obtain ⟨m, hm⟩ := Option.isSome_iff_exists.mp h
  obtain ⟨d, i, htakes, -⟩ := Pattern.exists_of_run hm
  obtain ⟨w, hw, b, hb, hblank⟩ := htakes.exists_of_spends .blank (by decide)
  have hrest : t = w ++ d.rest := hw.rest
  exact ⟨b, by rw [hrest]; exact List.mem_append_left _ hb, hblank⟩

/-- The text behind the keyword and the white space is determined. -/
theorem BeginsReference.append_eq {rest rest' t t' u u' : Text} (h : BeginsReference rest t)
    (h' : BeginsReference rest' t') (heq : rest ++ u = rest' ++ u') : t ++ u = t' ++ u' := by
  obtain ⟨⟨word, blanks, hrest, hspells, -, hblanks⟩, hstarts⟩ := h
  obtain ⟨⟨word', blanks', hrest', hspells', -, hblanks'⟩, hstarts'⟩ := h'
  have hdrop : ∀ {blanks t : Text} (u : Text), (∀ x ∈ blanks, isBlank x = true) →
      (∃ x ∈ t.head?, isBlank x = false) → (blanks ++ t ++ u).dropWhile isBlank = t ++ u := by
    rintro blanks t u hall ⟨x, hx, hxblank⟩
    cases t with
    | nil => cases hx
    | cons y ys =>
      obtain rfl : y = x := Option.some.inj hx
      rw [List.append_assoc, List.dropWhile_append_of_pos hall, List.cons_append,
        List.dropWhile_cons_of_neg (by simp [hxblank])]
  have hlen : word.length = word'.length := hspells.length_eq.symm.trans hspells'.length_eq
  rw [hrest, hrest', List.append_assoc word, List.append_assoc word', List.append_assoc word,
    List.append_assoc word'] at heq
  have htail := (List.append_inj heq hlen).2
  rw [← hdrop u hblanks hstarts, ← hdrop u' hblanks' hstarts', htail]

/-- Two cascading clauses that stand at the same place of a text, each read in a piece of it, name the
same table. -/
theorem Match.RefersAt.groupText_eq {m m' : Match} {table columns table' columns' : Nat}
    {c c' : Cursor} {u u' : Text} (h : m.RefersAt table columns c) (hne : table ≠ columns)
    (h' : m'.RefersAt table' columns' c') (hne' : table' ≠ columns')
    (hcascades : beginsWithCascade m.stop.rest = true)
    (hcascades' : beginsWithCascade m'.stop.rest = true) (heq : c.rest ++ u = c'.rest ++ u') :
    m.groupText table = m'.groupText table' := by
  obtain ⟨t, hbegins, htext, hstop⟩ := h.spelled hne
  obtain ⟨t', hbegins', htext', hstop'⟩ := h'.spelled hne'
  obtain ⟨b, hb, hblank⟩ := exists_isBlank_of_beginsWithCascade hcascades
  obtain ⟨b', hb', hblank'⟩ := exists_isBlank_of_beginsWithCascade hcascades'
  rw [htext, htext']
  exact qualifiedName_eq_of_append_eq (hbegins.append_eq hbegins' heq) ⟨b, hstop.subset hb, hblank⟩
    ⟨b', hstop'.subset hb', hblank'⟩

namespace Pattern

theorem refersAt_of_reference {c : Cursor} {m : Match} (h : reference.matchAt c = some m) :
    c.atWordEdge = true ∧ m.RefersAt 1 2 c := by
  have hrun : reference.matchAt c =
      if c.atWordEdge then (referenceTo 1 2).run c [] fun d h => some ⟨c, d, h⟩ else none := rfl
  have hstart := (matchAt_eq_some h).1
  rw [hrun] at h
  split at h
  · refine ⟨‹_›, [], ?_⟩
    rw [hstart]
    exact h
  · cases h

/-- A table-level foreign key up to its `REFERENCES` clause. -/
def foreignKeyLead : Pattern :=
  wordEdge ++ phrase ["FOREIGN", "KEY"] ++ blanks ++ opt (plainName ++ blanks) ++
    parenthesized 1 ++ blanks

/-- The clause of a foreign key stands behind the closing parenthesis of its columns and white space, and nothing is
remembered before it under the numbers of its parts. -/
theorem exists_run_of_foreignKey {c : Cursor} {m : Match} (h : foreignKey.matchAt c = some m) :
    ∃ d g w bl, c.Passes (w ++ ')' :: bl) d ∧ (∀ x ∈ bl, isBlank x = true) ∧
      (g.lookup 2 = none ∧ g.lookup 3 = none) ∧
      (referenceTo 2 3).run d g (fun e i => some ⟨m.start, e, i⟩) = some m := by
  have hrun : foreignKey.matchAt c =
      foreignKeyLead.run c [] fun d h => (referenceTo 2 3).run d h fun e i => some ⟨c, e, i⟩ := rfl
  have hstart := (matchAt_eq_some h).1
  rw [hrun] at h
  obtain ⟨d, g, hlead, h⟩ := exists_of_run h
  have htable : g.lookup 2 = none := hlead.lookup_eq (by decide)
  have hcolumns : g.lookup 3 = none := hlead.lookup_eq (by decide)
  rw [foreignKeyLead, takes_append] at hlead
  obtain ⟨e, i, hlist, hblanks⟩ := hlead
  rw [takes_append] at hlist
  obtain ⟨e', i', hfirst, hlist⟩ := hlist
  obtain ⟨u, hu, -⟩ := hfirst.exists_passes
  obtain ⟨v, hv, -⟩ := exists_of_takes_parenthesized hlist
  cases hblanks with
  | @many _ _ _ _ bl hw hall =>
    refine ⟨d, g, u ++ v, bl, ?_, hall, ⟨htable, hcolumns⟩, by rw [hstart]; exact h⟩
    simpa using (hu.trans hv).trans hw

/-- A closing parenthesis with white space behind it does not end in a word. -/
theorem exists_getLast?_of_blanks {bl : Text} (hbl : ∀ x ∈ bl, isBlank x = true) (w : Text) :
    ∃ x ∈ (w ++ ')' :: bl).getLast?, isWord x = false := by
  rw [List.getLast?_append, List.getLast?_cons]
  cases hlast : bl.getLast? with
  | none => exact ⟨')', rfl, by decide⟩
  | some y => exact ⟨y, rfl, isWord_of_isBlank (hbl y (List.mem_of_getLast? hlast))⟩

/-- The clause of a foreign key stands behind a closing parenthesis or a blank. -/
theorem exists_refersAt_of_foreignKey {c : Cursor} {m : Match} (h : foreignKey.matchAt c = some m) :
    ∃ d w, c.Passes w d ∧ (∃ x ∈ w.getLast?, isWord x = false) ∧ m.RefersAt 2 3 d := by
  obtain ⟨d, g, w, bl, hw, hbl, -, hrun⟩ := exists_run_of_foreignKey h
  exact ⟨d, _, hw, exists_getLast?_of_blanks hbl w, g, hrun⟩

end Pattern

/-- A clause that was found stands at its offset and was read there. -/
theorem exists_of_mem_references {t : Text} {r : Reference} (h : r ∈ references t) :
    ∃ m, Cursor.In t m.start ∧ m.RefersAt 1 2 m.start ∧ r = Reference.ofMatch m := by
  obtain ⟨m, hm, rfl⟩ := List.mem_map.mp h
  obtain ⟨hin, hmatch⟩ := Pattern.matchAt_of_mem_findAll hm
  exact ⟨m, hin, (Pattern.refersAt_of_reference hmatch).2, rfl⟩

namespace Pattern

/-! ## Whole words -/

/-- The keyword of a clause as a whole word. -/
def referenceWord : Pattern := wordEdge ++ keyword "REFERENCES" ++ wordEdge

theorem matchAt_referenceWord (c : Cursor) : referenceWord.matchAt c =
    if c.atWordEdge then (keyword "REFERENCES").run c [] fun d h =>
      if d.atWordEdge then some ⟨c, d, h⟩ else none
    else none := rfl

theorem isSome_matchAt_referenceWord {before : Option Char} (hbefore : before.any isWord = false)
    {w : Text} (hw : Spells "REFERENCES" w) {b : Char} (hb : isBlank b = true) (offset : Nat)
    (z : Text) : (referenceWord.matchAt ⟨before, offset, w ++ b :: z⟩).isSome = true := by
  have hall := isWord_of_spells hw
  have hne : w ≠ [] := by
    rintro rfl
    cases hw
  obtain ⟨x, xs, rfl⟩ := List.exists_cons_of_ne_nil hne
  have hstart : Cursor.atWordEdge ⟨before, offset, x :: xs ++ b :: z⟩ = true := by
    rw [Cursor.atWordEdge_eq_any, hbefore]
    simp [hall x List.mem_cons_self]
  have hstop : Cursor.atWordEdge ⟨(x :: xs).getLast?.or before, offset + byteSize (x :: xs),
      b :: z⟩ = true := by
    have hblank : isWord b = false := isWord_of_isBlank hb
    rw [Cursor.atWordEdge_eq_any, List.getLast?_eq_some_getLast hne]
    simp [hall _ (List.getLast_mem hne), hblank]
  rw [matchAt_referenceWord, if_pos hstart, keyword, run_letters_of_forall₂ hw, if_pos hstop]
  rfl

/-- Inside the word there is no edge, so the word does not begin there again. -/
theorem matchAt_referenceWord_eq_none {c d : Cursor} {v : Text} {m : Match}
    (h : referenceWord.matchAt c = some m) (hv : c.Passes v d) (hne : v ≠ [])
    (hlt : d.offset < m.stop.offset) : referenceWord.matchAt d = none := by
  obtain ⟨w, hw, hall⟩ : ∃ w, c.Passes w m.stop ∧ ∀ x ∈ w, isWord x = true := by
    rw [matchAt_referenceWord] at h
    split at h
    · obtain ⟨e, i, hkeyword, h⟩ := exists_of_run h
      obtain ⟨w, hw, hspells⟩ := exists_of_takes_letters hkeyword
      split at h
      · rw [Option.some.injEq] at h
        exact ⟨w, by rwa [← h], isWord_of_spells hspells⟩
      · cases h
    · cases h
  have hsize : byteSize v < byteSize w := by
    have hv' := hv.offset
    have hw' := hw.offset
    omega
  have hedge : d.atWordEdge = false := by
    rcases List.append_eq_append_iff.mp (hv.rest.symm.trans hw.rest) with ⟨a, rfl, hrest⟩ | ⟨a, rfl, -⟩
    · cases a with
      | nil => simp at hsize
      | cons y ys =>
        rw [Cursor.atWordEdge_eq_any, hv.before, hrest, List.getLast?_eq_some_getLast hne]
        simp [hall y (by simp), hall _ (List.mem_append_left _ (List.getLast_mem hne))]
    · rw [byteSize_append] at hsize
      omega
  rw [matchAt_referenceWord, hedge]
  rfl

/-- The keyword of a clause is found as a word, unless a word ends where it begins. -/
theorem exists_referenceWord {before rest t : Text} (hbefore : ∀ x ∈ before.getLast?, isWord x = false)
    (h : BeginsReference rest t) (after : Text) :
    ∃ m ∈ referenceWord.findAll (before ++ rest ++ after), m.start.offset = byteSize before := by
  obtain ⟨⟨word, blanks, hrest, hspells, hne, hblanks⟩, -⟩ := h
  obtain ⟨b, bs, rfl⟩ := List.exists_cons_of_ne_nil hne
  have hlast : before.getLast?.any isWord = false := by
    cases hx : before.getLast? with
    | none => rfl
    | some x => exact hbefore x hx
  have hfound := isSome_matchAt_referenceWord hlast hspells (hblanks b List.mem_cons_self)
    (byteSize before) (bs ++ t ++ after)
  obtain ⟨m, hm⟩ := Option.isSome_iff_exists.mp hfound
  have hstart := (matchAt_eq_some hm).1
  refine ⟨m, mem_findAll_of_matchAt matchAt_referenceWord_eq_none ⟨before, ?_⟩ ?_, by rw [hstart]⟩
  · rw [hstart]
    exact ⟨by simp [Cursor.atStart, hrest], by simp [Cursor.atStart], by simp [Cursor.atStart]⟩
  · rw [hstart]
    exact hm

end Pattern

end SchemaReview
