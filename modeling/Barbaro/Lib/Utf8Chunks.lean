import Barbaro.Lib.Utf16
import Barbaro.Lib.Utf8Cuts
import Mathlib.Data.List.Infix

/-!
# UTF-8 decoded chunk by chunk

A text arrives as chunks of its UTF-8 bytes, and every chunk is decoded on its own. A
chunk that ends inside a code point leaves U+FFFD for the bytes before the cut, and the
bytes after it become U+FFFD one by one.

* `chunked_whole_or_cut`: either every chunk is the bytes of whole code points, or the
  first code point that is parted stands as two or more U+FFFD.
* `Blurred`: a text with some of its code points above ASCII written as U+FFFD. Nothing in
  ASCII is gained or lost by it (`Blurred.infix_ascii`, `Blurred.ascii_append`).
* `chunked_eq_iff`: the chunks give the text back exactly if each holds whole code points.
-/

namespace Utf8

/-- The text of some bytes, U+FFFD for every ill-formed piece. -/
def replacing (bs : List UInt8) : List UInt16 := Utf16.units ((decode bs).map (fun c => c.getD 0xFFFD))

/-- The bytes of some whole code points. -/
def Whole (bs : List UInt8) : Prop := ∃ t, (∀ c ∈ t, Scalar c) ∧ bs = encode t

theorem units_append (a b : List ℕ) : Utf16.units (a ++ b) = Utf16.units a ++ Utf16.units b :=
  List.flatMap_append

/-! ## One chunk -/

theorem decode_encode_append {t : List ℕ} (ht : ∀ c ∈ t, Scalar c) (r : List UInt8) :
    decode (encode t ++ r) = t.map some ++ decode r := by
  induction t with
  | nil => rfl
  | cons c t ih =>
    obtain ⟨b, bs, hb, hd⟩ := decodeOne_encodeOne (ht c (by simp)) (encode t ++ r)
    have he : encode (c :: t) ++ r = b :: (bs ++ (encode t ++ r)) := by
      rw [encode_cons, hb, List.append_assoc, List.cons_append]
    rw [he, decode_cons, hd, ih fun d hd => ht d (by simp [hd]), List.map_cons, List.cons_append]

/-- A continuation byte on its own is one ill-formed piece. -/
theorem decode_continuations {k bs : List UInt8} (hk : ∀ x ∈ k, isContinuation x = true) :
    decode (k ++ bs) = List.replicate k.length none ++ decode bs := by
  induction k with
  | nil => rfl
  | cons x k ih =>
    have hx := (isContinuation_iff x).1 (hk x (by simp))
    have hone : decodeOne x (k ++ bs) = (none, k ++ bs) := by
      have hlead : lead x.toNat = none := by
        unfold lead
        rw [if_neg (by omega), if_neg (by omega), if_neg (by omega), if_neg (by omega)]
      simp only [decodeOne, hlead]
    rw [List.cons_append, decode_cons, hone, ih fun y hy => hk y (by simp [hy]), List.length_cons,
      List.replicate_succ, List.cons_append]

/-- A sequence that is stopped by the end of the input. -/
theorem continuation_short {n lo hi acc c : ℕ} {bs q : List UInt8} (h : continuation n lo hi acc bs = (some c, []))
    (hq : q <+: bs) (hne : q ≠ bs) : continuation n lo hi acc q = (none, []) := by
  induction n generalizing lo hi acc bs q with
  | zero =>
    rw [continuation, Prod.mk.injEq] at h
    obtain ⟨-, rfl⟩ := h
    exact absurd (List.prefix_nil.1 hq) hne
  | succ n ih =>
    cases q with
    | nil => rfl
    | cons x q =>
      obtain ⟨r, rfl⟩ := hq
      rw [List.cons_append, continuation] at h
      split at h
      case isFalse => simp at h
      case isTrue hx =>
        rw [continuation, if_pos hx]
        exact ih h ⟨r, rfl⟩ fun heq => hne (by rw [List.cons_append, ← heq])

/-- A code point of which the end is missing is one ill-formed piece. -/
theorem decode_short {c : ℕ} (hc : Scalar c) {q q' : List UInt8} (h : encodeOne c = q ++ q') (hq : q ≠ [])
    (hq' : q' ≠ []) : decode q = [none] := by
  obtain ⟨b, bs, hb, hd⟩ := decodeOne_encodeOne hc []
  cases q with
  | nil => exact absurd rfl hq
  | cons x q =>
    rw [hb, List.cons_append, List.cons.injEq] at h
    obtain ⟨rfl, rfl⟩ := h
    have hone : decodeOne b q = (none, []) := by
      unfold decodeOne at hd ⊢
      cases hl : lead b.toNat with
      | none => simp [hl] at hd
      | some p =>
        simp only [hl, List.append_nil] at hd ⊢
        refine continuation_short hd ⟨q', rfl⟩ fun heq => hq' ?_
        simpa using heq.symm
    rw [decode_cons, hone, decode_nil]

/-- Where the bytes of a text are cut: between two code points, or inside one. -/
theorem cut_encode {t : List ℕ} {p r : List UInt8} (h : p ++ r = encode t) :
    (∃ a b, t = a ++ b ∧ p = encode a ∧ r = encode b) ∨
    ∃ a c b q q', t = a ++ c :: b ∧ encodeOne c = q ++ q' ∧ q ≠ [] ∧ q' ≠ [] ∧
      p = encode a ++ q ∧ r = q' ++ encode b := by
  induction t generalizing p with
  | nil =>
    rw [encode_nil, List.append_eq_nil_iff] at h
    exact .inl ⟨[], [], rfl, h.1, h.2⟩
  | cons c t ih =>
    rw [encode_cons] at h
    rcases List.append_eq_append_iff.1 h with ⟨m, hone, hr⟩ | ⟨m, hp, hrest⟩
    · -- the cut is at or before the end of `c`
      rcases eq_or_ne p [] with rfl | hpne
      · exact .inl ⟨[], c :: t, rfl, rfl, by rw [hr, encode_cons, hone, List.nil_append]⟩
      rcases eq_or_ne m [] with rfl | hmne
      · refine .inl ⟨[c], t, rfl, ?_, by rw [hr, List.nil_append]⟩
        rw [encode_cons, encode_nil, List.append_nil, hone, List.append_nil]
      · exact .inr ⟨[], c, t, p, m, rfl, hone, hpne, hmne, rfl, hr⟩
    · rcases ih hrest.symm with ⟨a, b, rfl, rfl, rfl⟩ | ⟨a, d, b, q, q', rfl, hd, hq, hq', rfl, rfl⟩
      · exact .inl ⟨c :: a, b, rfl, hp, rfl⟩
      · exact .inr ⟨c :: a, d, b, q, q', rfl, hd, hq, hq', by rw [hp, encode_cons, List.append_assoc], rfl⟩

/-- What is missing of a code point that was cut. -/
theorem continuations_of_cut {c : ℕ} (hc : Scalar c) {q q' : List UInt8} (h : encodeOne c = q ++ q') (hq : q ≠ []) :
    ∀ x ∈ q', isContinuation x = true := by
  obtain ⟨b, bs, hshape, -, hnext⟩ := encodeOne_shape hc
  cases q with
  | nil => exact absurd rfl hq
  | cons y q =>
    rw [hshape, List.cons_append, List.cons.injEq] at h
    exact fun x hx => hnext x (by rw [h.2]; exact List.mem_append_right _ hx)

/-- Only a code point above ASCII has more than one byte. -/
theorem ascii_of_cut {c : ℕ} {q q' : List UInt8} (h : encodeOne c = q ++ q') (hq : q ≠ []) (hq' : q' ≠ []) :
    0x80 ≤ c := by
  by_contra hlt
  have hlen := congrArg List.length h
  rw [encodeOne, if_pos (by omega), List.length_singleton, List.length_append] at hlen
  have := List.length_pos_iff.2 hq
  have := List.length_pos_iff.2 hq'
  omega

/-! ## Texts with some code points replaced -/

/-- The text with some of its code points above ASCII written as U+FFFD. -/
inductive Blurred : List ℕ → List UInt16 → Prop
  | nil : Blurred [] []
  | keep {c : ℕ} {t : List ℕ} {d : List UInt16} : Blurred t d → Blurred (c :: t) (Utf16.unitsOne c ++ d)
  | blur {c k : ℕ} {t : List ℕ} {d : List UInt16} : 0x80 ≤ c → 2 ≤ k → Blurred t d →
      Blurred (c :: t) (List.replicate k 0xFFFD ++ d)

theorem Blurred.append_left (a : List ℕ) {t : List ℕ} {d : List UInt16} (h : Blurred t d) :
    Blurred (a ++ t) (Utf16.units a ++ d) := by
  induction a with
  | nil => exact h
  | cons c a ih =>
    have heq : Utf16.units (c :: a) ++ d = Utf16.unitsOne c ++ (Utf16.units a ++ d) := List.append_assoc _ _ _
    rw [heq]
    exact .keep ih

theorem unitsOne_length_le (c : ℕ) : (Utf16.unitsOne c).length ≤ 2 := by
  unfold Utf16.unitsOne
  split_ifs <;> simp

theorem Blurred.length_le {t : List ℕ} {d : List UInt16} (h : Blurred t d) : (Utf16.units t).length ≤ d.length := by
  induction h with
  | nil => exact Nat.le_refl _
  | @keep c t d _ ih =>
    have heq : (Utf16.units (c :: t)).length = (Utf16.unitsOne c).length + (Utf16.units t).length :=
      List.length_append
    rw [heq, List.length_append]
    omega
  | @blur c k t d _ hk _ ih =>
    have heq : (Utf16.units (c :: t)).length = (Utf16.unitsOne c).length + (Utf16.units t).length :=
      List.length_append
    have := unitsOne_length_le c
    rw [heq, List.length_append, List.length_replicate]
    omega

/-- A code point that was replaced shows. -/
theorem Blurred.ne {c k : ℕ} {t : List ℕ} {d : List UInt16} (hc : Scalar c) (hk : 2 ≤ k) (h : Blurred t d) :
    List.replicate k 0xFFFD ++ d ≠ Utf16.units (c :: t) := by
  intro heq
  have hunits : Utf16.units (c :: t) = Utf16.unitsOne c ++ Utf16.units t := rfl
  have hlen := congrArg List.length heq
  have hle := h.length_le
  rw [hunits, List.length_append, List.length_append, List.length_replicate] at hlen
  rcases Nat.lt_or_ge c 0x10000 with hlt | hge
  · rw [Utf16.unitsOne, if_pos hlt, List.length_singleton] at hlen
    omega
  · -- a surrogate pair does not start with U+FFFD
    obtain ⟨k, rfl⟩ : ∃ k', k = k' + 1 := ⟨k - 1, by omega⟩
    rw [hunits, Utf16.unitsOne, if_neg (by omega), List.replicate_succ, List.cons_append, List.cons_append,
      List.cons.injEq] at heq
    have hnat := congrArg UInt16.toNat heq.1
    have htop : c < 0x110000 := by
      unfold Scalar at hc
      omega
    rw [Utf16.toNat_ofNat (by omega)] at hnat
    simp only [UInt16.reduceToNat] at hnat
    omega

/-- Some ASCII units. -/
def Ascii (s : List UInt16) : Prop := ∀ u ∈ s, u.toNat < 0x80

theorem unitsOne_ascii {c : ℕ} (h : c < 0x80) : Utf16.unitsOne c = [.ofNat c] := if_pos (by omega)

/-- No unit of a code point above ASCII is in ASCII. -/
theorem unitsOne_above {c : ℕ} (hc : Scalar c) (h : 0x80 ≤ c) : ∀ u ∈ Utf16.unitsOne c, 0x80 ≤ u.toNat := by
  intro u hu
  unfold Utf16.unitsOne at hu
  unfold Scalar at hc
  split_ifs at hu with hlt
  · rw [List.mem_singleton.1 hu, Utf16.toNat_ofNat (by omega)]
    exact h
  · rcases List.mem_cons.1 hu with rfl | hu
    · rw [Utf16.toNat_ofNat (by omega)]
      omega
    · rw [List.mem_singleton.1 hu, Utf16.toNat_ofNat (by omega)]
      omega

theorem prefix_above {a r s : List UInt16} (ha : Ascii a) (hr : ∀ u ∈ r, 0x80 ≤ u.toNat) (hne : r ≠ [])
    (h : a <+: r ++ s) : a = [] := by
  cases a with
  | nil => rfl
  | cons u a =>
    cases r with
    | nil => exact absurd rfl hne
    | cons v r =>
      rw [List.cons_append, List.cons_prefix_cons] at h
      have hu := ha u (by simp)
      have hv := hr v (by simp)
      rw [h.1] at hu
      omega

theorem infix_above {a r s : List UInt16} (ha : Ascii a) (hr : ∀ u ∈ r, 0x80 ≤ u.toNat) (h : a <:+: r ++ s) :
    a <:+: s := by
  induction r with
  | nil => exact h
  | cons v r ih =>
    rw [List.cons_append, List.infix_cons_iff] at h
    rcases h with h | h
    · have hnil : a = [] := prefix_above (r := v :: r) ha hr (by simp) (by simpa using h)
      rw [hnil]
      exact List.nil_infix
    · exact ih (fun u hu => hr u (by simp [hu])) h

theorem replacement_above (k : ℕ) : ∀ u ∈ List.replicate k (0xFFFD : UInt16), 0x80 ≤ u.toNat := by
  intro u hu
  rw [List.eq_of_mem_replicate hu]
  decide

theorem replicate_ne_nil {k : ℕ} (hk : 2 ≤ k) : List.replicate k (0xFFFD : UInt16) ≠ [] := by
  rw [ne_eq, List.replicate_eq_nil_iff]
  omega

/-- What is read in ASCII at the front was there. -/
theorem Blurred.prefix_ascii {t : List ℕ} {d a : List UInt16} (ht : ∀ c ∈ t, Scalar c) (h : Blurred t d)
    (ha : Ascii a) (hpre : a <+: d) : a <+: Utf16.units t := by
  induction h generalizing a with
  | nil => exact hpre
  | @keep c t d _ ih =>
    rcases Nat.lt_or_ge c 0x80 with hlt | hge
    · cases a with
      | nil => exact List.nil_prefix
      | cons u a =>
        rw [unitsOne_ascii hlt, List.singleton_append, List.cons_prefix_cons] at hpre
        have hunits : Utf16.units (c :: t) = .ofNat c :: Utf16.units t := by
          have heq : Utf16.units (c :: t) = Utf16.unitsOne c ++ Utf16.units t := rfl
          rw [heq, unitsOne_ascii hlt, List.singleton_append]
        rw [hunits, List.cons_prefix_cons]
        exact ⟨hpre.1, ih (fun x hx => ht x (by simp [hx])) (fun x hx => ha x (by simp [hx])) hpre.2⟩
    · have hne : Utf16.unitsOne c ≠ [] := by
        unfold Utf16.unitsOne
        split_ifs <;> simp
      rw [prefix_above ha (unitsOne_above (ht c (by simp)) hge) hne hpre]
      exact List.nil_prefix
  | @blur c k t d _ hk _ ih =>
    rw [prefix_above ha (replacement_above k) (replicate_ne_nil hk) hpre]
    exact List.nil_prefix

/-- **What is read in ASCII was there.** -/
theorem Blurred.infix_ascii {t : List ℕ} {d a : List UInt16} (ht : ∀ c ∈ t, Scalar c) (h : Blurred t d)
    (ha : Ascii a) (hin : a <:+: d) : a <:+: Utf16.units t := by
  induction h with
  | nil => exact hin
  | @keep c t d hd ih =>
    have hunits : Utf16.units (c :: t) = Utf16.unitsOne c ++ Utf16.units t := rfl
    have hrest : ∀ x ∈ t, Scalar x := fun x hx => ht x (by simp [hx])
    rcases Nat.lt_or_ge c 0x80 with hlt | hge
    · rw [unitsOne_ascii hlt, List.singleton_append, List.infix_cons_iff] at hin
      rcases hin with hin | hin
      · have hpre : a <+: Utf16.unitsOne c ++ d := by rwa [unitsOne_ascii hlt, List.singleton_append]
        exact ((Blurred.keep hd).prefix_ascii ht ha hpre).isInfix
      · rw [hunits]
        exact (ih hrest hin).trans (List.suffix_append _ _).isInfix
    · rw [hunits]
      exact (ih hrest (infix_above ha (unitsOne_above (ht c (by simp)) hge) hin)).trans
        (List.suffix_append _ _).isInfix
  | @blur c k t d _ hk _ ih =>
    have hunits : Utf16.units (c :: t) = Utf16.unitsOne c ++ Utf16.units t := rfl
    rw [hunits]
    exact (ih (fun x hx => ht x (by simp [hx])) (infix_above ha (replacement_above k) hin)).trans
      (List.suffix_append _ _).isInfix

/-- ASCII at the front stays. -/
theorem Blurred.of_ascii_append {a t : List ℕ} {d : List UInt16} (ha : ∀ c ∈ a, c < 0x80) (h : Blurred (a ++ t) d) :
    ∃ d', d = Utf16.units a ++ d' ∧ Blurred t d' := by
  induction a generalizing d with
  | nil => exact ⟨d, rfl, h⟩
  | cons c a ih =>
    cases h with
    | keep hd =>
      obtain ⟨d', rfl, hd'⟩ := ih (fun x hx => ha x (by simp [hx])) hd
      exact ⟨d', (List.append_assoc _ _ _).symm, hd'⟩
    | blur hc _ _ =>
      have := ha c (by simp)
      omega

/-- ASCII at the end stays. -/
theorem Blurred.of_append_ascii {a t : List ℕ} {d : List UInt16} (ha : ∀ c ∈ a, c < 0x80) (h : Blurred (t ++ a) d) :
    ∃ d', d = d' ++ Utf16.units a ∧ Blurred t d' := by
  induction t generalizing d with
  | nil =>
    obtain ⟨d', rfl, hd'⟩ := Blurred.of_ascii_append (t := []) ha (by simpa using h)
    cases hd'
    exact ⟨[], by simp, .nil⟩
  | cons c t ih =>
    cases h with
    | keep hd =>
      obtain ⟨d', rfl, hd'⟩ := ih hd
      exact ⟨_, (List.append_assoc _ _ _).symm, .keep hd'⟩
    | blur hc hk hd =>
      obtain ⟨d', rfl, hd'⟩ := ih hd
      exact ⟨_, (List.append_assoc _ _ _).symm, .blur hc hk hd'⟩

/-! ## All the chunks -/

theorem replacing_append {t : List ℕ} (ht : ∀ c ∈ t, Scalar c) (r : List UInt8) :
    replacing (encode t ++ r) = Utf16.units t ++ replacing r := by
  have hmap : (t.map some).map (fun c => Option.getD c 0xFFFD) = t := by
    rw [List.map_map]
    exact List.map_id _
  rw [replacing, decode_encode_append ht, List.map_append, hmap, units_append]
  rfl

theorem replacing_encode {t : List ℕ} (ht : ∀ c ∈ t, Scalar c) : replacing (encode t) = Utf16.units t := by
  have h := replacing_append ht []
  rwa [List.append_nil, show replacing [] = [] from rfl, List.append_nil] at h

theorem replacing_continuations {k bs : List UInt8} (hk : ∀ x ∈ k, isContinuation x = true) :
    replacing (k ++ bs) = List.replicate k.length 0xFFFD ++ replacing bs := by
  have hnone : ∀ n, Utf16.units ((List.replicate n (none : Option ℕ)).map (fun c => c.getD 0xFFFD)) =
      List.replicate n 0xFFFD := by
    intro n
    induction n with
    | zero => rfl
    | succ n ih =>
      rw [List.replicate_succ, List.map_cons, List.replicate_succ, ← ih]
      rfl
  rw [replacing, decode_continuations hk, List.map_append, units_append, hnone]
  rfl

theorem replacing_short {c : ℕ} (hc : Scalar c) {q q' : List UInt8} (h : encodeOne c = q ++ q') (hq : q ≠ [])
    (hq' : q' ≠ []) : replacing q = [0xFFFD] := by
  rw [replacing, decode_short hc h hq hq']
  rfl

theorem scalars_append {a b : List ℕ} (h : ∀ c ∈ a ++ b, Scalar c) : (∀ c ∈ a, Scalar c) ∧ ∀ c ∈ b, Scalar c :=
  ⟨fun c hc => h c (List.mem_append_left _ hc), fun c hc => h c (List.mem_append_right _ hc)⟩

/-- Chunks that start with what is missing of a code point. -/
theorem chunked_blurred {t : List ℕ} (ht : ∀ c ∈ t, Scalar c) {k : List UInt8}
    (hk : ∀ x ∈ k, isContinuation x = true) {ps : List (List UInt8)} (h : ps.flatten = k ++ encode t) :
    ∃ d, ps.flatMap replacing = List.replicate k.length 0xFFFD ++ d ∧ Blurred t d := by
  induction ps generalizing t k with
  | nil =>
    rw [List.flatten_nil, eq_comm, List.append_eq_nil_iff] at h
    cases t with
    | nil => exact ⟨[], by rw [h.1]; rfl, .nil⟩
    | cons c t =>
      have hpos := encodeOne_pos (ht c (by simp))
      have hnil := congrArg List.length h.2
      rw [encode_cons, List.length_append, List.length_nil] at hnil
      omega
  | cons p ps ih =>
    rw [List.flatten_cons] at h
    rcases List.append_eq_append_iff.1 h with ⟨m, rfl, hrest⟩ | ⟨m, rfl, hrest⟩
    · -- the chunk ends before the missing bytes do
      have hp : ∀ x ∈ p, isContinuation x = true := fun x hx => hk x (List.mem_append_left _ hx)
      obtain ⟨d, hd, hb⟩ := ih ht (fun x hx => hk x (List.mem_append_right _ hx)) hrest
      refine ⟨d, ?_, hb⟩
      have hone := @replacing_continuations p [] hp
      rw [List.append_nil, show replacing [] = [] from rfl, List.append_nil] at hone
      rw [List.flatMap_cons, hd, hone, ← List.append_assoc, List.length_append, List.replicate_add]
    · rcases cut_encode hrest.symm with ⟨a, b, rfl, rfl, htail⟩ | ⟨a, c, b, q, q', rfl, hc, hq, hq', rfl, htail⟩
      · obtain ⟨hsa, hsb⟩ := scalars_append ht
        obtain ⟨d, hd, hb⟩ := ih (k := []) hsb (by simp) (by simpa using htail)
        refine ⟨Utf16.units a ++ d, ?_, hb.append_left a⟩
        rw [List.flatMap_cons, replacing_continuations hk, replacing_encode hsa, hd, List.append_assoc]
        rfl
      · obtain ⟨hsa, hsb⟩ := scalars_append ht
        have hsc : Scalar c := hsb c (by simp)
        obtain ⟨d, hd, hb⟩ := ih (fun x hx => hsb x (by simp [hx])) (continuations_of_cut hsc hc hq) htail
        refine ⟨Utf16.units a ++ (List.replicate (q'.length + 1) 0xFFFD ++ d), ?_, ?_⟩
        · rw [List.flatMap_cons, replacing_continuations hk, replacing_append hsa,
            replacing_short hsc hc hq hq', hd, List.replicate_succ, List.append_assoc, List.append_assoc,
            List.singleton_append, List.cons_append]
        · have := List.length_pos_iff.2 hq'
          exact Blurred.append_left a (.blur (ascii_of_cut hc hq hq') (by omega) hb)

/-- **The first code point that is parted** shows as two or more U+FFFD. -/
theorem chunked_whole_or_cut {t : List ℕ} (ht : ∀ c ∈ t, Scalar c) {ps : List (List UInt8)}
    (h : ps.flatten = encode t) : (∀ p ∈ ps, Whole p) ∨
      ∃ a c b k d, t = a ++ c :: b ∧ 2 ≤ k ∧ Blurred b d ∧
        ps.flatMap replacing = Utf16.units a ++ (List.replicate k 0xFFFD ++ d) := by
  induction ps generalizing t with
  | nil => exact .inl (by simp)
  | cons p ps ih =>
    rw [List.flatten_cons] at h
    rcases cut_encode h with ⟨a, b, rfl, rfl, htail⟩ | ⟨a, c, b, q, q', rfl, hc, hq, hq', rfl, htail⟩
    · obtain ⟨hsa, hsb⟩ := scalars_append ht
      rcases ih hsb htail with hwhole | ⟨a', c, b', k, d, rfl, hk, hb, hd⟩
      · refine .inl fun x hx => ?_
        rcases List.mem_cons.1 hx with rfl | hx
        · exact ⟨a, hsa, rfl⟩
        · exact hwhole x hx
      · refine .inr ⟨a ++ a', c, b', k, d, (List.append_assoc _ _ _).symm, hk, hb, ?_⟩
        rw [List.flatMap_cons, replacing_encode hsa, hd, units_append, List.append_assoc]
    · obtain ⟨hsa, hsb⟩ := scalars_append ht
      have hsc : Scalar c := hsb c (by simp)
      obtain ⟨d, hd, hb⟩ := chunked_blurred (fun x hx => hsb x (by simp [hx])) (continuations_of_cut hsc hc hq)
        htail
      have := List.length_pos_iff.2 hq'
      refine .inr ⟨a, c, b, q'.length + 1, d, rfl, by omega, hb, ?_⟩
      rw [List.flatMap_cons, replacing_append hsa, replacing_short hsc hc hq hq', hd, List.replicate_succ,
        List.append_assoc, List.singleton_append, List.cons_append]

theorem chunked_of_whole {t : List ℕ} (ht : ∀ c ∈ t, Scalar c) {ps : List (List UInt8)}
    (h : ps.flatten = encode t) (hwhole : ∀ p ∈ ps, Whole p) : ps.flatMap replacing = Utf16.units t := by
  have hjoin : ∀ ps : List (List UInt8), (∀ p ∈ ps, Whole p) →
      ∃ u, (∀ c ∈ u, Scalar c) ∧ ps.flatten = encode u ∧ ps.flatMap replacing = Utf16.units u := by
    intro ps
    induction ps with
    | nil => exact fun _ => ⟨[], by simp, rfl, rfl⟩
    | cons p ps ih =>
      intro hps
      obtain ⟨a, ha, rfl⟩ := hps p (by simp)
      obtain ⟨u, hu, hflat, htext⟩ := ih fun x hx => hps x (by simp [hx])
      refine ⟨a ++ u, fun c hc => (List.mem_append.1 hc).elim (ha c) (hu c), ?_, ?_⟩
      · rw [List.flatten_cons, hflat, encode_append]
      · rw [List.flatMap_cons, htext, replacing_encode ha, units_append]
  obtain ⟨u, hu, hflat, htext⟩ := hjoin ps hwhole
  have hsame : decode (encode u) = decode (encode t) := by rw [← hflat, h]
  rw [decode_encode hu, decode_encode ht] at hsame
  rw [htext, List.map_injective_iff.2 (fun _ _ => Option.some.inj) hsame]

/-- **The chunks give the text back** exactly if each holds whole code points. -/
theorem chunked_eq_iff {t : List ℕ} (ht : ∀ c ∈ t, Scalar c) {ps : List (List UInt8)} (h : ps.flatten = encode t) :
    ps.flatMap replacing = Utf16.units t ↔ ∀ p ∈ ps, Whole p := by
  refine ⟨fun heq => ?_, chunked_of_whole ht h⟩
  rcases chunked_whole_or_cut ht h with hwhole | ⟨a, c, b, k, d, rfl, hk, hb, hd⟩
  · exact hwhole
  · rw [hd, units_append, List.append_cancel_left_eq] at heq
    exact absurd heq (hb.ne ((scalars_append ht).2 c (by simp)) hk)

end Utf8
