import Mathlib.Data.List.Pairwise
import SchemaReview.Proofs.Text.Basic
import SchemaReview.Source.Statement

/-!
# Proofs.Source.Statement — where the statements of a script stand

A statement is a piece of the text between two semicolons, or between a semicolon and an end of the
text: `Statement.Stands`.  Statements do not touch each other, since a semicolon stands between them
(`pairwise_statements`); so a byte lies in one statement at most (`eq_of_covers`).
-/

namespace SchemaReview

open Text

namespace Statement

/-- The statement stands in the text where it says, with nothing or a semicolon on either side. -/
def Stands (st : Statement) (t : Text) : Prop :=
  ∃ before after, t = before ++ st.text ++ after ∧ byteSize before = st.offset ∧
    (∀ c ∈ before.getLast?, c = ';') ∧ ∀ c ∈ after.head?, c = ';'

/-- The byte lies in the statement. -/
def Covers (st : Statement) (offset : Nat) : Prop :=
  st.offset ≤ offset ∧ offset < st.offset + byteSize st.text

instance (st : Statement) (offset : Nat) : Decidable (st.Covers offset) :=
  inferInstanceAs (Decidable (_ ∧ _))

/-- One of the statements ends before the other begins. -/
def Apart (a b : Statement) : Prop :=
  a.offset + byteSize a.text < b.offset ∨ b.offset + byteSize b.text < a.offset

instance : Std.Symm Apart := ⟨fun _ _ => Or.symm⟩

theorem mem_ofPiece {start : Nat} {piece : Text} {st : Statement} (h : st ∈ ofPiece start piece) :
    st = ⟨start, piece⟩ := by
  unfold ofPiece at h
  split at h
  · cases h
  · exact List.mem_singleton.mp h

end Statement

/-- The scan keeps what it has passed: the piece under way ends at the byte at hand, and begins
behind a semicolon or at the start of the text. -/
theorem statementsFrom_stands {t rest : Text} {start offset : Nat} (before : Text) (skip : Nat)
    (piece : Text) (ht : t = before ++ piece.reverse ++ rest) (hbefore : byteSize before = start)
    (hoffset : offset = start + byteSize piece.reverse) (hlast : ∀ c ∈ before.getLast?, c = ';') :
    ∀ st ∈ statementsFrom start offset skip piece rest, st.Stands t := by
  induction rest generalizing before start offset skip piece with
  | nil =>
    intro st hst
    obtain rfl := Statement.mem_ofPiece hst
    exact ⟨before, [], ht, hbefore, hlast, by simp⟩
  | cons c cs ih =>
    -- the character at hand belongs to the piece
    have hpiece : ∀ skip, ∀ st ∈ statementsFrom start (offset + c.utf8Size) skip (c :: piece) cs,
        st.Stands t := by
      intro skip
      refine ih before skip (c :: piece) (by simp [ht]) hbefore ?_ hlast
      rw [List.reverse_cons, byteSize_append, byteSize_cons, byteSize_nil]
      omega
    intro st hst
    rw [statementsFrom] at hst
    split at hst
    · split at hst
      · rename_i hc
        subst hc
        rcases List.mem_append.mp hst with hst | hst
        · obtain rfl := Statement.mem_ofPiece hst
          exact ⟨before, ';' :: cs, ht, hbefore, hlast, by simp⟩
        · have hsize : (';' : Char).utf8Size = 1 := rfl
          refine ih (before ++ piece.reverse ++ [';']) 0 [] (by simp [ht]) ?_ rfl (by simp) st hst
          rw [byteSize_append, byteSize_append, hbefore, byteSize_cons, byteSize_nil, hsize]
          omega
      · exact hpiece _ st hst
    · exact hpiece _ st hst

theorem le_offset_of_mem_statementsFrom {rest : Text} {start offset skip : Nat} {piece : Text}
    (h : start ≤ offset) :
    ∀ st ∈ statementsFrom start offset skip piece rest, start ≤ st.offset := by
  induction rest generalizing start offset skip piece with
  | nil =>
    intro st hst
    rw [Statement.mem_ofPiece hst]
  | cons c cs ih =>
    intro st hst
    rw [statementsFrom] at hst
    split at hst
    · split at hst
      · rcases List.mem_append.mp hst with hst | hst
        · rw [Statement.mem_ofPiece hst]
        · have := ih (le_refl (offset + 1)) st hst
          omega
      · exact ih (by omega) st hst
    · exact ih (by omega) st hst

theorem pairwise_statementsFrom {rest : Text} {start offset : Nat} (skip : Nat) {piece : Text}
    (hoffset : offset = start + byteSize piece.reverse) :
    (statementsFrom start offset skip piece rest).Pairwise
      fun a b => a.offset + byteSize a.text < b.offset := by
  have hone : ∀ start piece, (Statement.ofPiece start piece).Pairwise
      fun a b => a.offset + byteSize a.text < b.offset := by
    intro start piece
    unfold Statement.ofPiece
    split <;> simp
  induction rest generalizing start offset skip piece with
  | nil => exact hone _ _
  | cons c cs ih =>
    have hpiece : ∀ skip, (statementsFrom start (offset + c.utf8Size) skip (c :: piece) cs).Pairwise
        fun a b => a.offset + byteSize a.text < b.offset := by
      intro skip
      refine ih skip ?_
      rw [List.reverse_cons, byteSize_append, byteSize_cons, byteSize_nil]
      omega
    rw [statementsFrom]
    split
    · split
      · refine List.pairwise_append.mpr ⟨hone _ _, ih 0 rfl, fun a ha b hb => ?_⟩
        have hb' := le_offset_of_mem_statementsFrom (le_refl (offset + 1)) b hb
        rw [Statement.mem_ofPiece ha]
        show start + byteSize piece.reverse < b.offset
        omega
      · exact hpiece _
    · exact hpiece _

namespace Source

variable {s : Source}

theorem stands_of_mem_statements {st : Statement} (h : st ∈ s.statements) : st.Stands s.text :=
  statementsFrom_stands [] 0 [] rfl rfl rfl (by simp) st h

theorem pairwise_statements (s : Source) :
    s.statements.Pairwise fun a b => a.offset + byteSize a.text < b.offset :=
  pairwise_statementsFrom 0 rfl

/-- A byte lies in one statement at most. -/
theorem eq_of_covers {st st' : Statement} (h : st ∈ s.statements) (h' : st' ∈ s.statements)
    {offset : Nat} (hcovers : st.Covers offset) (hcovers' : st'.Covers offset) : st = st' := by
  by_contra hne
  have hapart := (s.pairwise_statements.imp (S := Statement.Apart) Or.inl).forall h h' hne
  obtain ⟨hle, hlt⟩ := hcovers
  obtain ⟨hle', hlt'⟩ := hcovers'
  unfold Statement.Apart at hapart
  omega

end Source

end SchemaReview
