import Mathlib.Data.List.Basic

/-!
# Frames

A sequence of parts is told by the text of its frames if each frame tells where it ends.

* `SelfDelimiting`: a frame at the beginning of a text is the only one that can stand there.
* `SelfDelimiting.sequence`: then the frames of a sequence, each after a mark, tell the sequence.
* `selfDelimiting_label`: a frame that begins with a label, which tells what the part is made of.
-/

namespace Framing

variable {α P : Type}

/-- No part but this has a frame that begins a text that begins with its frame. -/
def SelfDelimiting (frame : P → List α) (valid : P → Prop) : Prop :=
  ∀ p q, valid p → valid q → ∀ r s, frame p ++ r = frame q ++ s → p = q ∧ r = s

/-- The frames of a sequence, each after a mark. -/
def framed (mark : α) (frame : P → List α) (parts : List P) : List α :=
  parts.flatMap (fun p => mark :: frame p)

theorem framed_cons (mark : α) (frame : P → List α) (p : P) (parts : List P) :
    framed mark frame (p :: parts) = mark :: (frame p ++ framed mark frame parts) := by
  rw [framed, List.flatMap_cons, List.cons_append]
  rfl

/-- A text is cut in one way at the first stop. -/
theorem split_at_stop {stop : α} {a b r s : List α} (ha : stop ∉ a) (hb : stop ∉ b)
    (h : a ++ stop :: r = b ++ stop :: s) : a = b ∧ r = s := by
  induction a generalizing b with
  | nil =>
    cases b with
    | nil => exact ⟨rfl, (List.cons.inj h).2⟩
    | cons y b =>
      obtain rfl : stop = y := (List.cons.inj h).1
      exact absurd List.mem_cons_self hb
  | cons x a ih =>
    cases b with
    | nil =>
      obtain rfl : x = stop := (List.cons.inj h).1
      exact absurd List.mem_cons_self ha
    | cons y b =>
      obtain ⟨rfl, htail⟩ := List.cons.inj h
      obtain ⟨rfl, hrest⟩ := ih (fun hmem => ha (List.mem_cons_of_mem _ hmem))
        (fun hmem => hb (List.mem_cons_of_mem _ hmem)) htail
      exact ⟨rfl, hrest⟩

/-- **The frames of a sequence tell the sequence.** -/
theorem SelfDelimiting.sequence {frame : P → List α} {valid : P → Prop} (h : SelfDelimiting frame valid)
    (mark : α) {ps qs : List P} (hps : ∀ p ∈ ps, valid p) (hqs : ∀ q ∈ qs, valid q)
    (heq : framed mark frame ps = framed mark frame qs) : ps = qs := by
  induction ps generalizing qs with
  | nil =>
    cases qs with
    | nil => rfl
    | cons q qs =>
      rw [framed_cons] at heq
      cases heq
  | cons p ps ih =>
    cases qs with
    | nil =>
      rw [framed_cons] at heq
      cases heq
    | cons q qs =>
      rw [framed_cons, framed_cons, List.cons.injEq] at heq
      obtain ⟨hp, hps⟩ := List.forall_mem_cons.1 hps
      obtain ⟨hq, hqs⟩ := List.forall_mem_cons.1 hqs
      obtain ⟨hhead, hrest⟩ := h p q hp hq _ _ heq.2
      rw [hhead, ih hps hqs hrest]

/-- A label up to a stop, then a body: the label tells the size of the body, and the two of
them tell the part. -/
theorem selfDelimiting_label {label body : P → List α} {stop : α} {valid : P → Prop}
    (hstop : ∀ p, stop ∉ label p) (hsize : ∀ p q, label p = label q → (body p).length = (body q).length)
    (hpart : ∀ p q, valid p → valid q → label p = label q → body p = body q → p = q) :
    SelfDelimiting (fun p => label p ++ stop :: body p) valid := by
  intro p q hp hq r s heq
  rw [List.append_assoc, List.append_assoc, List.cons_append, List.cons_append] at heq
  obtain ⟨hlabel, hrest⟩ := split_at_stop (hstop p) (hstop q) heq
  obtain ⟨hbody, hrest⟩ := List.append_inj hrest (hsize p q hlabel)
  exact ⟨hpart p q hp hq hlabel hbody, hrest⟩

end Framing
