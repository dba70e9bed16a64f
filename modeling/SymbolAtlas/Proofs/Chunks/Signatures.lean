import SymbolAtlas.Chunks.Signature
import SymbolAtlas.Proofs.Text.Cutting
import SymbolAtlas.Proofs.Text.Trim

/-!
# Signatures, written and read back

A list of parameters is canonical if no parameter is blank or has blanks at its ends, and if no
comma in one stands outside angle brackets. The brackets are counted, and they must match in every
parameter but the last. What is read from a detail is canonical, whatever the detail, and a
canonical list is read back as it was written.

* `Signature.Scans` — a parameter read with a depth in angle brackets, with
  `Signature.scans_cons_iff`;
* `Signature.Cut`, `Signature.Canonical` — the parts of a text, and parameters;
* `Signature.cut_splitAtDepth`, `Signature.Scans.splitAtDepth_comma` — what splitting gives, and
  where it splits;
* `Signature.ofDetail_canonical` — the whole.
-/

namespace SymbolAtlas.Signature

open Text

/-! ## Depth in angle brackets -/

/-- Reading a text leads from one depth in angle brackets to another, and meets no comma at depth
zero. -/
inductive Scans : Nat → Text → Nat → Prop
  | done (depth : Nat) : Scans depth [] depth
  | opening {depth stop : Nat} {t : Text} (h : Scans (depth + 1) t stop) :
      Scans depth (.char '<' :: t) stop
  | closing {depth stop : Nat} {t : Text} (h : Scans (depth - 1) t stop) :
      Scans depth (.char '>' :: t) stop
  | comma {depth stop : Nat} {t : Text} (h : Scans (depth + 1) t stop) :
      Scans (depth + 1) (.char ',' :: t) stop
  | other {depth stop : Nat} {c : CodePoint} {t : Text} (hopening : c ≠ .char '<')
      (hclosing : c ≠ .char '>') (hcomma : c ≠ .char ',') (h : Scans depth t stop) :
      Scans depth (c :: t) stop

/-- A code point at which a text is split, at a depth. -/
def Splits (depth : Nat) (c : CodePoint) : Prop :=
  c = .char ',' ∧ depth = 0

theorem scans_nil_iff {depth stop : Nat} : Scans depth [] stop ↔ stop = depth := by
  constructor
  · rintro ⟨⟩
    rfl
  · rintro rfl
    exact .done stop

/-- The rules for single code points as one. -/
theorem scans_cons_iff {depth stop : Nat} {c : CodePoint} {t : Text} :
    Scans depth (c :: t) stop ↔ ¬ Splits depth c ∧ Scans (nest depth c) t stop := by
  constructor
  · intro h
    cases h with
    | opening h => exact ⟨by simp [Splits], h⟩
    | closing h => exact ⟨by simp [Splits], h⟩
    | comma h => exact ⟨by simp [Splits], h⟩
    | other hopening hclosing hcomma h =>
      refine ⟨fun hsplits => hcomma hsplits.1, ?_⟩
      rwa [nest, if_neg hopening, if_neg hclosing]
  · rintro ⟨hsplits, h⟩
    by_cases hopening : c = .char '<'
    · subst hopening
      exact .opening h
    by_cases hclosing : c = .char '>'
    · subst hclosing
      exact .closing h
    rw [nest, if_neg hopening, if_neg hclosing] at h
    by_cases hcomma : c = .char ','
    · subst hcomma
      cases depth with
      | zero => exact absurd ⟨rfl, rfl⟩ hsplits
      | succ depth => exact .comma h
    · exact .other hopening hclosing hcomma h

theorem scans_append_iff {depth stop : Nat} {s t : Text} :
    Scans depth (s ++ t) stop ↔ ∃ middle, Scans depth s middle ∧ Scans middle t stop := by
  induction s generalizing depth with
  | nil => simp [scans_nil_iff]
  | cons c s ih =>
    rw [List.cons_append, scans_cons_iff, ih]
    simp only [scans_cons_iff, and_assoc, exists_and_left]

/-- A blank is neither a bracket nor a comma. -/
theorem nest_of_isBlankPoint (depth : Nat) {c : CodePoint} (hc : isBlankPoint c = true) :
    nest depth c = depth ∧ ¬ Splits depth c := by
  have hopening : c ≠ .char '<' := by
    rintro rfl
    exact absurd hc (by decide)
  have hclosing : c ≠ .char '>' := by
    rintro rfl
    exact absurd hc (by decide)
  have hcomma : c ≠ .char ',' := by
    rintro rfl
    exact absurd hc (by decide)
  exact ⟨by rw [nest, if_neg hopening, if_neg hclosing], fun hsplits => hcomma hsplits.1⟩

theorem scans_of_blank {depth stop : Nat} {t : Text} (ht : ∀ c ∈ t, isBlankPoint c = true) :
    Scans depth t stop ↔ stop = depth := by
  induction t with
  | nil => exact scans_nil_iff
  | cons c t ih =>
    rw [List.forall_mem_cons] at ht
    obtain ⟨hnest, hsplits⟩ := nest_of_isBlankPoint depth ht.1
    rw [scans_cons_iff, hnest, ih ht.2]
    exact and_iff_right hsplits

/-- Blanks at the ends do not matter. -/
theorem Scans.trim {depth stop : Nat} {t : Text} (h : Scans depth t stop) :
    Scans depth (trim t) stop := by
  obtain ⟨lead, trail, ht, hlead, htrail⟩ := exists_blanks t
  rw [ht, scans_append_iff] at h
  obtain ⟨middle, hfront, htrailing⟩ := h
  obtain ⟨start, hleading, hmiddle⟩ := scans_append_iff.1 hfront
  rw [scans_of_blank hlead] at hleading
  rw [scans_of_blank htrail] at htrailing
  rw [hleading] at hmiddle
  rwa [htrailing]

/-! ## The parts of a text -/

section Split

variable {depth stop : Nat} {c : CodePoint} {t rest p : Text} {ps : List Text}

theorem splitAtDepth_of_splits (h : Splits depth c) :
    splitAtDepth depth (c :: t) = [] :: splitAtDepth 0 t := by
  obtain ⟨rfl, rfl⟩ := h
  rw [splitAtDepth, if_pos (by rfl)]

theorem splitAtDepth_of_not_splits (h : ¬ Splits depth c)
    (ht : splitAtDepth (nest depth c) t = p :: ps) :
    splitAtDepth depth (c :: t) = (c :: p) :: ps := by
  rw [splitAtDepth, if_neg (by simpa [Splits] using h), ht]

theorem Scans.splitAtDepth_eq (h : Scans depth t stop) : splitAtDepth depth t = [t] := by
  induction t generalizing depth with
  | nil => rfl
  | cons c t ih =>
    rw [scans_cons_iff] at h
    exact splitAtDepth_of_not_splits h.1 (ih h.2)

/-- A comma that is met at depth zero ends the part in front of it. -/
theorem Scans.splitAtDepth_comma (h : Scans depth t 0) :
    splitAtDepth depth (t ++ .char ',' :: rest) = t :: splitAtDepth 0 rest := by
  induction t generalizing depth with
  | nil =>
    obtain rfl := scans_nil_iff.1 h
    exact splitAtDepth_of_splits ⟨rfl, rfl⟩
  | cons c t ih =>
    rw [scans_cons_iff] at h
    exact splitAtDepth_of_not_splits h.1 (ih h.2)

/-- Parts of a text that begins at a depth: each but the last ends at depth zero. -/
inductive Cut : Nat → List Text → Prop
  | last {depth stop : Nat} {p : Text} (h : Scans depth p stop) : Cut depth [p]
  | cons {depth : Nat} {p : Text} {ps : List Text} (h : Scans depth p 0) (rest : Cut 0 ps) :
      Cut depth (p :: ps)

theorem Cut.ne_nil (h : Cut depth ps) : ps ≠ [] := by
  cases h <;> simp

theorem cut_splitAtDepth (depth : Nat) (t : Text) : Cut depth (splitAtDepth depth t) := by
  induction t generalizing depth with
  | nil => exact .last (.done depth)
  | cons c t ih =>
    by_cases hsplits : Splits depth c
    · rw [splitAtDepth_of_splits hsplits]
      obtain ⟨-, rfl⟩ := hsplits
      exact .cons (.done 0) (ih 0)
    · have hcut := ih (nest depth c)
      obtain ⟨p, ps, hps⟩ := List.exists_cons_of_ne_nil hcut.ne_nil
      rw [splitAtDepth_of_not_splits hsplits hps]
      rw [hps] at hcut
      cases hcut with
      | last h => exact .last (scans_cons_iff.2 ⟨hsplits, h⟩)
      | cons h rest => exact .cons (scans_cons_iff.2 ⟨hsplits, h⟩) rest

end Split

/-! ## Canonical lists -/

/-- A list of parameters that stands for itself: none is empty or has blanks at its ends, none has a
comma outside angle brackets, and each but the last ends outside them. -/
inductive Canonical : List Text → Prop
  | nil : Canonical []
  | last {p : Text} {stop : Nat} (hne : p ≠ []) (trimmed : Trimmed p) (h : Scans 0 p stop) :
      Canonical [p]
  | cons {p : Text} {ps : List Text} (hne : p ≠ []) (trimmed : Trimmed p) (h : Scans 0 p 0)
      (rest : Canonical ps) : Canonical (p :: ps)

/-- The parts of a text as parameters: without the blanks at their ends, and only those of which
something is left. -/
def parametersOf (parts : List Text) : List Text :=
  (parts.map trim).filter fun p => !p.isEmpty

theorem splitParameters_eq (t : Text) :
    splitParameters t = parametersOf (splitAtDepth 0 (unwrap (trim t))) := rfl

theorem parametersOf_cons (p : Text) (ps : List Text) :
    parametersOf (p :: ps) =
      if trim p = [] then parametersOf ps else trim p :: parametersOf ps := by
  unfold parametersOf
  rw [List.map_cons, List.filter_cons]
  split <;> split <;> simp_all

theorem Cut.canonical {depth : Nat} {ps : List Text} (h : Cut depth ps) (hdepth : depth = 0) :
    Canonical (parametersOf ps) := by
  induction h with
  | last h =>
    subst hdepth
    rw [parametersOf_cons]
    split
    · exact .nil
    · next hne => exact .last hne (trimmed_trim _) h.trim
  | cons h _ ih =>
    subst hdepth
    rw [parametersOf_cons]
    split
    · exact ih rfl
    · next hne => exact .cons hne (trimmed_trim _) h.trim (ih rfl)

theorem canonical_splitParameters (t : Text) : Canonical (splitParameters t) :=
  (cut_splitAtDepth 0 (unwrap (trim t))).canonical rfl

theorem canonical_ofText (t : Text) : Canonical (ofText t).parameters := by
  unfold ofText
  split
  · dsimp only
    split
    · exact canonical_splitParameters t
    · exact .nil
  · split
    · exact .nil
    · exact canonical_splitParameters _

/-! ## Reading back -/

theorem trim_cons_of_blank {c : CodePoint} (hc : isBlankPoint c = true) (t : Text) :
    trim (c :: t) = trim t := by
  rw [trim, List.dropWhile_cons_of_pos hc, trim]

/-- A blank in front of a text is no part of its parameters. -/
theorem parametersOf_blank {c : CodePoint} (hc : isBlankPoint c = true) (t : Text) :
    parametersOf (splitAtDepth 0 (c :: t)) = parametersOf (splitAtDepth 0 t) := by
  obtain ⟨hnest, hsplits⟩ := nest_of_isBlankPoint 0 hc
  obtain ⟨p, ps, hps⟩ := List.exists_cons_of_ne_nil (cut_splitAtDepth 0 t).ne_nil
  rw [splitAtDepth_of_not_splits hsplits (by rw [hnest, hps]), hps, parametersOf_cons,
    parametersOf_cons, trim_cons_of_blank hc]

/-- A canonical list between commas. -/
def listing (ps : List Text) : Text :=
  joinPieces ", " ps

theorem parametersOf_listing {ps : List Text} (h : Canonical ps) :
    parametersOf (splitAtDepth 0 (listing ps)) = ps := by
  induction h with
  | nil => rfl
  | last hne trimmed h =>
    rw [listing, joinPieces, h.splitAtDepth_eq, parametersOf_cons, trimmed.trim_eq, if_neg hne]
    rfl
  | @cons p ps hne trimmed h rest ih =>
    by_cases hps : ps = []
    · rw [hps, listing, joinPieces, h.splitAtDepth_eq, parametersOf_cons, trimmed.trim_eq,
        if_neg hne]
      rfl
    · -- the blank behind the comma is the first of the next part, and is trimmed off it
      have hjoin : listing (p :: ps) = p ++ .char ',' :: .char ' ' :: listing ps := by
        rw [listing, joinPieces_cons p hps, List.append_assoc]
        rfl
      rw [hjoin, h.splitAtDepth_comma, parametersOf_cons, trimmed.trim_eq, if_neg hne,
        parametersOf_blank rfl, ih]

/-- A text in parentheses. -/
def parenthesized (t : Text) : Text :=
  .char '(' :: (t ++ [.char ')'])

theorem trimmed_parenthesized (t : Text) : Trimmed (parenthesized t) := by
  constructor
  · rintro c ⟨⟩
    rfl
  · intro c hc
    rw [parenthesized, ← List.cons_append, List.getLast?_concat] at hc
    cases hc
    rfl

theorem unwrap_parenthesized (t : Text) : unwrap (parenthesized t) = t := by
  simp [unwrap, parenthesized]

theorem isParenthesized_parenthesized (t : Text) : isParenthesized (parenthesized t) = true := by
  rw [isParenthesized, (trimmed_parenthesized t).trim_eq, parenthesized, ← List.cons_append,
    List.getLast?_concat]
  rfl

theorem splitParameters_listing {ps : List Text} (h : Canonical ps) :
    splitParameters (parenthesized (listing ps)) = ps := by
  rw [splitParameters_eq, (trimmed_parenthesized _).trim_eq, unwrap_parenthesized,
    parametersOf_listing h]

theorem separator_ne_nil : separator ≠ [] := by decide

/-- A parenthesis in front makes no separator. -/
theorem not_isInfix_cons {t : Text} (h : ¬ separator <:+: t) :
    ¬ separator <:+: .char '(' :: t := by
  rw [List.infix_cons_iff, not_or]
  refine ⟨fun hbegins => ?_, h⟩
  have hhead := List.cons_prefix_cons.1 hbegins
  exact absurd hhead.1 (by decide)

/-- Without a type nothing is cut. -/
theorem cutAtText_parenthesized {t : Text} (h : ¬ separator <:+: t) :
    cutAtText separator (parenthesized t) = none :=
  (cutAtText_eq_none_iff separator_ne_nil).2
    (not_isInfix_cons (not_isInfix_concat separator_ne_nil h (by decide)))

/-- With a type the text is cut behind the parenthesis that closes the list. -/
theorem cutAtText_typed {t : Text} (h : ¬ separator <:+: t) (type : Text) :
    cutAtText separator (parenthesized t ++ separator ++ type) = some (parenthesized t, type) := by
  have htext : parenthesized t ++ separator ++ type =
      .char '(' :: t ++ .char ')' :: (separator ++ type) := by
    simp [parenthesized]
  rw [htext, cutAtText_append separator_ne_nil (not_isInfix_cons h) (by decide)]
  rfl

section Reading

variable {ps : List Text} (hps : Canonical ps) (hlisting : ¬ separator <:+: listing ps)

include hps hlisting

theorem ofText_parenthesized : ofText (parenthesized (listing ps)) = ⟨defaultReturnType, ps⟩ := by
  rw [ofText, cutAtText_parenthesized hlisting]
  dsimp only
  rw [if_pos (isParenthesized_parenthesized _), splitParameters_listing hps]

theorem ofText_typed {type : Text} (hne : type ≠ []) (trimmed : Trimmed type)
    (htype : ¬ separator <:+: type) :
    ofText (parenthesized (listing ps) ++ separator ++ type) = ⟨type, ps⟩ := by
  have honce : cutAtText separator type = none :=
    (cutAtText_eq_none_iff separator_ne_nil).2 htype
  rw [ofText, cutAtText_typed hlisting]
  simp only [honce, Option.isSome_none, Bool.false_eq_true, if_false, trimmed.trim_eq,
    List.isEmpty_iff, hne, splitParameters_listing hps]

end Reading

/-! ## The whole -/

/-- **A signature is read back as it was written, and only canonical lists are read.** A canonical
list of parameters in parentheses, with a return type after a colon between blanks or without one,
is read as these parameters and this type, unless the list or the type holds such a colon itself.
Whatever a detail says, the parameters read from it are a canonical list. -/
theorem ofDetail_canonical :
    (∀ ps, Canonical ps → ¬ (" : " : Text) <:+: joinPieces ", " ps →
      (∀ type : Text, type ≠ [] → Trimmed type → ¬ (" : " : Text) <:+: type →
        ofDetail (some ("(" ++ joinPieces ", " ps ++ ") : " ++ type)) = ⟨type, ps⟩) ∧
      ofDetail (some ("(" ++ joinPieces ", " ps ++ ")")) = ⟨"void", ps⟩) ∧
    ∀ detail, Canonical (ofDetail detail).parameters := by
  refine ⟨fun ps hps hlisting => ⟨fun type hne trimmed htype => ?_, ?_⟩, fun detail => ?_⟩
  · have htext : ("(" ++ joinPieces ", " ps ++ ") : " ++ type : Text) =
        parenthesized (listing ps) ++ separator ++ type := by
      simp [parenthesized, listing, separator, ofString, ofChars]
    rw [htext]
    exact ofText_typed hps hlisting hne trimmed htype
  · have htext : ("(" ++ joinPieces ", " ps ++ ")" : Text) = parenthesized (listing ps) := rfl
    rw [htext]
    exact ofText_parenthesized hps hlisting
  · cases detail with
    | none => exact .nil
    | some t => exact canonical_ofText t

/-- A list with a pair of brackets that is not closed, and one whose first bracket closes none. -/
def sampleParameters : List Text :=
  ["Map<K, V> m", "A> a", "B<C, D b"]

theorem canonical_sampleParameters : Canonical sampleParameters := by
  have hcanonical := canonical_ofText "(Map<K, V> m, A> a, B<C, D b)"
  have hread : (ofText "(Map<K, V> m, A> a, B<C, D b)").parameters = sampleParameters := by decide
  rwa [hread] at hcanonical

/-- The comma between the brackets of a parameter separates nothing, be the brackets closed or
not. -/
theorem ofDetail_sampleParameters :
    Canonical sampleParameters ∧ ¬ (" : " : Text) <:+: joinPieces ", " sampleParameters ∧
      ofDetail (some "(Map<K, V> m, A> a, B<C, D b) : List<E>") =
        ⟨"List<E>", sampleParameters⟩ := by
  have hlisting : ¬ (" : " : Text) <:+: joinPieces ", " sampleParameters := by decide +kernel
  have htrimmed : Trimmed ("List<E>" : Text) := ⟨by decide, by decide⟩
  obtain ⟨hread, -⟩ := ofDetail_canonical
  obtain ⟨htyped, -⟩ := hread sampleParameters canonical_sampleParameters hlisting
  exact ⟨canonical_sampleParameters, hlisting,
    htyped "List<E>" (by decide) htrimmed (by decide +kernel)⟩

end SymbolAtlas.Signature
