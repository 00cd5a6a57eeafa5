import PrussBindings.Lib.Newlines
import PrussBindings.Lib.Utf8Stream

/-!
# Lines from a source of messages

A text file of Python over a descriptor on which every `read` gives one message,
and waits where there is none.  An empty message is the end of the file, until the
next one.

* `TextFile`, `TextFile.readChunk`, `TextFile.readline` — the file object; a line
  takes as many reads as it takes to find a newline, and what follows the newline
  stays in the object.
* `Collects` — lines are read as long as there are messages.
* `TextFile.readline_conserves` — **a line loses nothing**, as long as there is no
  carriage return.
* `Delivers` — the queues whose last message ends the last line.
* `collects_iff_delivers` — **exactly the messages of these are returned whole**,
  without a wait.
-/

namespace Text

/-! ## The file object -/

/-- A file that is open for reading: the front of a character, the carriage return
that may be held back, and the characters that have not been returned. -/
structure TextFile where
  kept : Bytes
  newlines : NewlineDecoder
  chars : Str
  deriving DecidableEq

/-- What became of a call of `readline`, with the messages it left. -/
inductive LineRead where
  | blocks
  | undecodable (queue : List Bytes)
  | line (s : Str) (f : TextFile) (queue : List Bytes)

namespace TextFile

/-- A file just opened. -/
def opened : TextFile := ⟨[], ⟨false⟩, []⟩

/-- What one `read` adds to the file, and whether it found the end of the file.
`none` is a decoding error. -/
def readChunk (f : TextFile) (chunk : Bytes) : Option (TextFile × Bool) := do
  let (s, kept) ← pushBytes f.kept chunk
  if chunk = [] ∧ kept ≠ [] then none
  else
    let (text, newlines) := f.newlines.feed s chunk.isEmpty
    return (⟨kept, newlines, f.chars ++ text⟩, chunk.isEmpty && text.isEmpty)

/-- The first line of the characters. -/
def firstLine (chars : Str) : Str := chars.takeWhile (· ≠ '\n') ++ ['\n']

/-- The characters after the first line. -/
def afterLine (chars : Str) : Str := (chars.dropWhile (· ≠ '\n')).drop 1

/-- `readline`. -/
def readline (f : TextFile) (queue : List Bytes) : LineRead :=
  if '\n' ∈ f.chars then
    .line (firstLine f.chars) { f with chars := afterLine f.chars } queue
  else match queue with
    | [] => .blocks
    | m :: queue =>
      match f.readChunk m with
      | none => .undecodable queue
      | some (f, true) => .line f.chars { f with chars := [] } queue
      | some (f, false) => f.readline queue

end TextFile

/-- Reads lines as long as there are messages: the number of lines, the text they
make, and the file after them. -/
inductive Collects : TextFile → List Bytes → Nat → Str → TextFile → Prop where
  | nil (f : TextFile) : Collects f [] 0 [] f
  | line {f f' f'' : TextFile} {m : Bytes} {queue queue' : List Bytes} {s t : Str} {n : Nat} :
    f.readline (m :: queue) = .line s f' queue' → Collects f' queue' n t f'' →
    Collects f (m :: queue) (n + 1) (s ++ t) f''

theorem collects_nil_iff {f f' : TextFile} {n : Nat} {t : Str} :
    Collects f [] n t f' ↔ n = 0 ∧ t = [] ∧ f' = f := by
  constructor
  · intro h
    cases h
    exact ⟨rfl, rfl, rfl⟩
  · rintro ⟨rfl, rfl, rfl⟩
    exact .nil f'

theorem collects_cons_iff {f f'' : TextFile} {m : Bytes} {queue : List Bytes} {n : Nat} {u : Str} :
    Collects f (m :: queue) n u f'' ↔ ∃ k s t f' queue', n = k + 1 ∧ u = s ++ t ∧
      f.readline (m :: queue) = .line s f' queue' ∧ Collects f' queue' k t f'' := by
  constructor
  · intro h
    cases h with
    | line hline hrest => exact ⟨_, _, _, _, _, rfl, rfl, hline, hrest⟩
  · rintro ⟨k, s, t, f', queue', rfl, rfl, hline, hrest⟩
    exact .line hline hrest

/-! ## Lines -/

namespace TextFile

theorem firstLine_append {w : Str} (hw : '\n' ∉ w) (u : Str) :
    firstLine (w ++ '\n' :: u) = w ++ ['\n'] := by
  rw [firstLine, takeWhile_ne_append hw]

theorem afterLine_append {w : Str} (hw : '\n' ∉ w) (u : Str) : afterLine (w ++ '\n' :: u) = u := by
  rw [afterLine, dropWhile_ne_append hw, List.drop_one, List.tail_cons]

theorem firstLine_append_afterLine {chars : Str} (h : '\n' ∈ chars) :
    firstLine chars ++ afterLine chars = chars := by
  obtain ⟨w, u, rfl, hw⟩ := List.eq_append_cons_of_mem h
  rw [firstLine_append hw, afterLine_append hw]
  simp

theorem readline_of_mem {f : TextFile} (h : '\n' ∈ f.chars) (queue : List Bytes) :
    f.readline queue = .line (firstLine f.chars) { f with chars := afterLine f.chars } queue := by
  cases queue <;> exact if_pos h

theorem readline_nil {f : TextFile} (h : '\n' ∉ f.chars) : f.readline [] = .blocks := if_neg h

theorem readline_cons {f : TextFile} (h : '\n' ∉ f.chars) (m : Bytes) (queue : List Bytes) :
    f.readline (m :: queue) = match f.readChunk m with
      | none => .undecodable queue
      | some (f, true) => .line f.chars { f with chars := [] } queue
      | some (f, false) => f.readline queue := if_neg h

/-! ## Files without carriage returns -/

/-- No carriage return has come in. -/
structure Clean (f : TextFile) : Prop where
  front : IsFront f.kept
  newlines : f.newlines = ⟨false⟩

theorem clean_opened : Clean opened := ⟨isFront_nil, rfl⟩

/-- The bytes that have been read and not returned. -/
def content (f : TextFile) : Bytes := encode f.chars ++ f.kept

/-- A character that is decoded from bytes is in them. -/
theorem not_mem_of_pushBytes {kept kept' b : Bytes} {s : Str} (hkept : IsFront kept)
    (h : pushBytes kept b = some (s, kept')) {x : UInt8} (hx : x < 128) (hb : x ∉ b) :
    asciiChar x ∉ s := by
  intro hs
  have hmem : x ∈ encode s ++ kept' := List.mem_append_left _ (mem_encode hx hs)
  rw [pushBytes_sound h, List.mem_append] at hmem
  exact hmem.elim (fun hold => hkept.ge x hold hx) hb

/-- The end of the file, where no character is cut. -/
theorem readChunk_nil {f : TextFile} (hf : Clean f) :
    f.readChunk [] = if f.kept = [] then some (f, true) else none := by
  obtain ⟨kept, newlines, chars⟩ := f
  obtain rfl : newlines = ⟨false⟩ := hf.newlines
  have hfeed : NewlineDecoder.feed ⟨false⟩ [] true = ([], ⟨false⟩) :=
    NewlineDecoder.feed_eq (by simp) true
  by_cases hkept : kept = []
  · simp [readChunk, hkept, hfeed]
  · simp [readChunk, hkept]

/-- A message with something in it. -/
theorem readChunk_cons {f : TextFile} (hf : Clean f) {m : Bytes} (hm : m ≠ []) (hcr : 13 ∉ m) :
    f.readChunk m =
      (pushBytes f.kept m).map fun r => (⟨r.2, ⟨false⟩, f.chars ++ r.1⟩, false) := by
  obtain ⟨kept, newlines, chars⟩ := f
  obtain rfl : newlines = ⟨false⟩ := hf.newlines
  cases hpush : pushBytes kept m with
  | none => simp [readChunk, hpush]
  | some r =>
    obtain ⟨s, kept'⟩ := r
    have hs : '\r' ∉ s := not_mem_of_pushBytes hf.front hpush (by decide) hcr
    have hempty : m.isEmpty = false := by simpa using hm
    simp [readChunk, hpush, hm, hempty, NewlineDecoder.feed_eq hs]

/-- How a line is read from messages without a carriage return. -/
inductive ReadsLine : TextFile → List Bytes → Str → TextFile → List Bytes → Prop where
  | newline {f : TextFile} (queue : List Bytes) : '\n' ∈ f.chars →
    ReadsLine f queue (firstLine f.chars) { f with chars := afterLine f.chars } queue
  | eof {f : TextFile} (queue : List Bytes) : '\n' ∉ f.chars → f.kept = [] →
    ReadsLine f ([] :: queue) f.chars { f with chars := [] } queue
  | more {f f' : TextFile} {m kept : Bytes} {queue queue' : List Bytes} {s t : Str} :
    '\n' ∉ f.chars → m ≠ [] → pushBytes f.kept m = some (s, kept) →
    ReadsLine ⟨kept, ⟨false⟩, f.chars ++ s⟩ queue t f' queue' → ReadsLine f (m :: queue) t f' queue'

section Clean

variable {f f' : TextFile} {queue queue' : List Bytes} {s : Str}

theorem readsLine_of_mem (hnl : '\n' ∈ f.chars) :
    ReadsLine f queue s f' queue' ↔
      .line (firstLine f.chars) { f with chars := afterLine f.chars } queue =
        LineRead.line s f' queue' := by
  constructor
  · intro h
    cases h with
    | newline => rfl
    | eof _ hno => exact absurd hnl hno
    | more hno => exact absurd hnl hno
  · intro h
    cases h
    exact .newline _ hnl

theorem not_readsLine_nil (hnl : '\n' ∉ f.chars) : ¬ ReadsLine f [] s f' queue' := by
  intro h
  cases h with
  | newline _ hmem => exact hnl hmem

theorem readsLine_eof_iff (hnl : '\n' ∉ f.chars) :
    ReadsLine f ([] :: queue) s f' queue' ↔
      f.kept = [] ∧ .line f.chars { f with chars := [] } queue = LineRead.line s f' queue' := by
  constructor
  · intro h
    cases h with
    | newline _ hmem => exact absurd hmem hnl
    | eof _ _ hkept => exact ⟨hkept, rfl⟩
    | more _ hne => exact absurd rfl hne
  · rintro ⟨hkept, h⟩
    cases h
    exact .eof _ hnl hkept

theorem readsLine_more_iff (hnl : '\n' ∉ f.chars) {m : Bytes} (hm : m ≠ []) :
    ReadsLine f (m :: queue) s f' queue' ↔ ∃ t kept, pushBytes f.kept m = some (t, kept) ∧
      ReadsLine ⟨kept, ⟨false⟩, f.chars ++ t⟩ queue s f' queue' := by
  constructor
  · intro h
    cases h with
    | newline _ hmem => exact absurd hmem hnl
    | eof => exact absurd rfl hm
    | more _ _ hpush hrest => exact ⟨_, _, hpush, hrest⟩
  · rintro ⟨t, kept, hpush, hrest⟩
    exact .more hnl hm hpush hrest

theorem readsLine_iff (hf : Clean f) (hcr : ∀ m ∈ queue, 13 ∉ m) :
    f.readline queue = .line s f' queue' ↔ ReadsLine f queue s f' queue' := by
  induction queue generalizing f with
  | nil =>
    by_cases hnl : '\n' ∈ f.chars
    · rw [readline_of_mem hnl, readsLine_of_mem hnl]
    · rw [readline_nil hnl]
      exact iff_of_false (by simp) (not_readsLine_nil hnl)
  | cons m queue ih =>
    rw [List.forall_mem_cons] at hcr
    by_cases hnl : '\n' ∈ f.chars
    · rw [readline_of_mem hnl, readsLine_of_mem hnl]
    · rw [readline_cons hnl]
      by_cases hm : m = []
      · subst hm
        rw [readChunk_nil hf, readsLine_eof_iff hnl]
        by_cases hkept : f.kept = []
        · rw [if_pos hkept, and_iff_right hkept]
        · rw [if_neg hkept]
          exact iff_of_false (by simp) fun h => hkept h.1
      · rw [readChunk_cons hf hm hcr.1, readsLine_more_iff hnl hm]
        cases hpush : pushBytes f.kept m with
        | none => simp
        | some r =>
          obtain ⟨t, kept⟩ := r
          have hclean : Clean ⟨kept, ⟨false⟩, f.chars ++ t⟩ :=
            ⟨pushBytes_isFront hf.front hpush, rfl⟩
          refine (ih hclean hcr.2).trans ⟨fun h => ⟨t, kept, rfl, h⟩, ?_⟩
          rintro ⟨_, _, heq, h⟩
          cases heq
          exact h

theorem ReadsLine.clean (h : ReadsLine f queue s f' queue') (hf : Clean f) : Clean f' := by
  induction h with
  | newline => exact ⟨hf.front, hf.newlines⟩
  | eof => exact ⟨hf.front, hf.newlines⟩
  | more _ _ hpush _ ih => exact ih ⟨pushBytes_isFront hf.front hpush, rfl⟩

theorem ReadsLine.suffix (h : ReadsLine f queue s f' queue') : queue' <:+ queue := by
  induction h with
  | newline => exact List.suffix_rfl
  | eof => exact List.suffix_cons ..
  | more _ _ _ _ ih => exact ih.trans (List.suffix_cons ..)

/-- **A line loses nothing.** -/
theorem ReadsLine.conserves (h : ReadsLine f queue s f' queue') :
    encode s ++ content f' ++ queue'.flatten = content f ++ queue.flatten := by
  induction h with
  | @newline f queue hnl =>
    have hchars := congrArg encode (firstLine_append_afterLine hnl)
    rw [encode_append] at hchars
    simp only [content, ← hchars, List.append_assoc]
  | eof => simp [content]
  | more _ _ hpush _ ih =>
    have hbytes := pushBytes_sound hpush
    rw [ih]
    simp only [content, encode_append, List.flatten_cons, List.append_assoc]
    rw [← List.append_assoc _ _ (List.flatten _), hbytes, List.append_assoc]

/-- An empty line is the end of the file, and nothing is left behind it. -/
theorem ReadsLine.content_eq_nil (h : ReadsLine f queue [] f' queue') : content f' = [] := by
  generalize hs : ([] : Str) = s at h
  induction h with
  | newline => exact absurd hs.symm (by simp [firstLine])
  | eof _ _ hkept => simp [content, hkept]
  | more _ _ _ _ ih => exact ih hs

end Clean

end TextFile

/-! ## All lines -/

/-- The queues whose messages are returned whole, after some bytes that were kept:
characters may be cut between messages, but not by the end of the file, and the
last message is empty or ends the only line of it. -/
inductive Delivers : Bytes → List Bytes → Prop where
  | eof : Delivers [] [[]]
  | last {kept m : Bytes} {w : Str} : pushBytes kept m = some (w ++ ['\n'], []) → '\n' ∉ w →
    Delivers kept [m]
  | skip {queue : List Bytes} : Delivers [] queue → Delivers [] ([] :: queue)
  | next {kept kept' m : Bytes} {queue : List Bytes} {s : Str} : m ≠ [] →
    pushBytes kept m = some (s, kept') → Delivers kept' queue → Delivers kept (m :: queue)

section Collects

open TextFile

variable {f f' : TextFile} {queue queue' : List Bytes} {s t : Str} {n : Nat}

theorem Delivers.ne_nil {kept : Bytes} (h : Delivers kept queue) : queue ≠ [] := by
  cases h <;> simp

/-- Characters of which the last one only is a newline. -/
theorem eq_concat_of_afterLine {chars s : Str} (hchars : '\n' ∉ chars) (hnl : '\n' ∈ chars ++ s)
    (hafter : afterLine (chars ++ s) = []) : ∃ w, s = w ++ ['\n'] ∧ '\n' ∉ w := by
  obtain ⟨v, u, heq, hv⟩ := List.eq_append_cons_of_mem hnl
  rw [heq, afterLine_append hv] at hafter
  subst hafter
  rcases List.eq_nil_or_concat s with rfl | ⟨w, c, rfl⟩
  · rw [List.append_nil] at hnl
    exact absurd hnl hchars
  · rw [List.concat_eq_append, ← List.append_assoc] at heq
    obtain ⟨rfl, hc⟩ := List.append_inj' heq rfl
    obtain rfl : c = '\n' := List.singleton_inj.1 hc
    exact ⟨w, List.concat_eq_append, fun hw => hv (List.mem_append_right _ hw)⟩

/-- A line leaves a queue that is returned whole, or nothing at all, only if its own
queue is returned whole. -/
theorem TextFile.ReadsLine.delivers (h : ReadsLine f queue s f' queue') (hqueue : queue ≠ [])
    (hrest : queue' = [] ∧ content f' = [] ∨ Delivers f'.kept queue') : Delivers f.kept queue := by
  induction h with
  | newline => exact hrest.elim (fun hend => absurd hend.1 hqueue) id
  | eof _ _ hkept =>
    rw [hkept]
    obtain ⟨rfl, -⟩ | hrest := hrest
    · exact .eof
    · exact .skip (hkept ▸ hrest)
  | @more f f' m kept queue queue' s t hnl hm hpush hread ih =>
    by_cases hlast : queue = []
    · subst hlast
      cases hread with
      | newline _ hmem =>
        obtain ⟨-, hend⟩ | hrest := hrest
        · obtain ⟨hafter, rfl⟩ := List.append_eq_nil_iff.1 hend
          obtain ⟨w, rfl, hw⟩ := eq_concat_of_afterLine hnl hmem (encode_injective hafter)
          exact .last hpush hw
        · exact absurd rfl hrest.ne_nil
    · exact .next hm hpush (ih hlast hrest)

/-- What is left when all lines have been read. -/
theorem Collects.delivers (h : Collects f queue n t f') (hf : Clean f) (hcr : ∀ m ∈ queue, 13 ∉ m)
    (hqueue : queue ≠ []) (hend : content f' = []) : Delivers f.kept queue := by
  induction h with
  | nil => exact absurd rfl hqueue
  | @line f f₁ f₂ m queue queue' s t n hline hrest ih =>
    have hread := (readsLine_iff hf hcr).1 hline
    refine hread.delivers hqueue ?_
    by_cases hnil : queue' = []
    · subst hnil
      cases hrest
      exact .inl ⟨rfl, hend⟩
    · exact .inr (ih (hread.clean hf) (fun x hx => hcr x (hread.suffix.subset hx)) hnil hend)

/-- **Nothing is lost on the way to the last line.** -/
theorem Collects.conserves (h : Collects f queue n t f') (hf : Clean f)
    (hcr : ∀ m ∈ queue, 13 ∉ m) :
    encode t ++ content f' = content f ++ queue.flatten := by
  induction h with
  | nil => simp
  | line hline _ ih =>
    have hread := (readsLine_iff hf hcr).1 hline
    rw [encode_append, List.append_assoc,
      ih (hread.clean hf) fun x hx => hcr x (hread.suffix.subset hx), ← List.append_assoc,
      hread.conserves]

/-- Where the text is empty although there were messages, nothing is left over. -/
theorem Collects.content_eq_nil (h : Collects f queue n [] f') (hf : Clean f)
    (hcr : ∀ m ∈ queue, 13 ∉ m) (hqueue : queue ≠ []) : content f' = [] := by
  generalize ht : ([] : Str) = t at h
  induction h with
  | nil => exact absurd rfl hqueue
  | @line f f₁ f₂ m queue queue' s t n hline hrest ih =>
    have hread := (readsLine_iff hf hcr).1 hline
    obtain ⟨rfl, rfl⟩ := List.append_eq_nil_iff.1 ht.symm
    by_cases hnil : queue' = []
    · subst hnil
      cases hrest
      exact hread.content_eq_nil
    · exact ih (hread.clean hf) (fun x hx => hcr x (hread.suffix.subset hx)) hnil rfl

theorem TextFile.no_cr_of_firstLine (hnl : '\n' ∈ f.chars) (hchars : '\r' ∉ f.chars)
    (h : f.readline queue = .line s f' queue') : '\r' ∉ s ∧ '\r' ∉ f'.chars := by
  rw [readline_of_mem hnl] at h
  cases h
  rwa [← firstLine_append_afterLine hnl, List.mem_append, not_or] at hchars

theorem TextFile.readChunk_no_cr {m : Bytes} {eof : Bool} (hchars : '\r' ∉ f.chars)
    (h : f.readChunk m = some (f', eof)) : '\r' ∉ f'.chars := by
  unfold readChunk at h
  obtain ⟨⟨s, kept⟩, -, h⟩ := Option.bind_eq_some_iff.1 h
  dsimp only at h
  split_ifs at h
  cases h
  rw [List.mem_append, not_or]
  exact ⟨hchars, f.newlines.not_mem_feed s _⟩

/-- No line has a carriage return in it. -/
theorem TextFile.readline_no_cr (hchars : '\r' ∉ f.chars)
    (h : f.readline queue = .line s f' queue') : '\r' ∉ s ∧ '\r' ∉ f'.chars := by
  induction queue generalizing f with
  | nil =>
    by_cases hnl : '\n' ∈ f.chars
    · exact no_cr_of_firstLine hnl hchars h
    · rw [readline_nil hnl] at h
      cases h
  | cons m queue ih =>
    by_cases hnl : '\n' ∈ f.chars
    · exact no_cr_of_firstLine hnl hchars h
    · rw [readline_cons hnl] at h
      cases hchunk : f.readChunk m with
      | none =>
        rw [hchunk] at h
        cases h
      | some r =>
        obtain ⟨f₁, eof⟩ := r
        have hf₁ := readChunk_no_cr hchars hchunk
        rw [hchunk] at h
        cases eof with
        | true =>
          cases h
          exact ⟨hf₁, List.not_mem_nil⟩
        | false => exact ih hf₁ h

theorem Collects.no_cr (h : Collects f queue n t f') (hchars : '\r' ∉ f.chars) : '\r' ∉ t := by
  induction h with
  | nil => simp
  | line hline _ ih =>
    obtain ⟨hs, hf'⟩ := readline_no_cr hchars hline
    rw [List.mem_append, not_or]
    exact ⟨hs, ih hf'⟩

/-- Lines that are complete are returned without a read. -/
theorem collects_drain (hqueue : queue ≠ []) {kept : Bytes} {newlines : NewlineDecoder}
    (h : ∀ chars, '\n' ∉ chars →
      ∃ n t f', Collects ⟨kept, newlines, chars⟩ queue n t f' ∧ content f' = [])
    (chars : Str) : ∃ n t f', Collects ⟨kept, newlines, chars⟩ queue n t f' ∧ content f' = [] := by
  induction hlen : chars.length using Nat.strong_induction_on generalizing chars with
  | _ len ih =>
    by_cases hnl : '\n' ∈ chars
    · have hlt : (afterLine chars).length < len := by
        obtain ⟨w, u, rfl, hw⟩ := List.eq_append_cons_of_mem hnl
        rw [afterLine_append hw, ← hlen, List.length_append, List.length_cons]
        omega
      obtain ⟨m, queue, rfl⟩ := List.exists_cons_of_ne_nil hqueue
      obtain ⟨n, t, f', hrest, hend⟩ := ih _ hlt _ rfl
      exact ⟨n + 1, _, f', .line (readline_of_mem hnl _) hrest, hend⟩
    · exact h chars hnl

/-- A line that takes its messages from a longer queue. -/
theorem Collects.more {kept kept' m : Bytes} {chars : Str} (hkept : IsFront kept)
    (hnl : '\n' ∉ chars) (hm : m ≠ []) (hcr : 13 ∉ m) (hpush : pushBytes kept m = some (s, kept'))
    (h : Collects ⟨kept', ⟨false⟩, chars ++ s⟩ queue n t f') (hqueue : queue ≠ []) :
    Collects ⟨kept, ⟨false⟩, chars⟩ (m :: queue) n t f' := by
  cases h with
  | nil => exact absurd rfl hqueue
  | line hline hrest =>
    refine .line ?_ hrest
    have hchunk := readChunk_cons (f := ⟨kept, ⟨false⟩, chars⟩) ⟨hkept, rfl⟩ hm hcr
    rw [readline_cons hnl, hchunk, hpush]
    exact hline

/-- **The messages of such a queue are read to the end.** -/
theorem Delivers.collects {kept : Bytes} (h : Delivers kept queue) (hkept : IsFront kept)
    (hcr : ∀ m ∈ queue, 13 ∉ m) (chars : Str) :
    ∃ n t f', Collects ⟨kept, ⟨false⟩, chars⟩ queue n t f' ∧ content f' = [] := by
  induction h generalizing chars with
  | eof =>
    refine collects_drain (by simp) (fun chars hnl => ?_) chars
    have hread : ReadsLine ⟨[], ⟨false⟩, chars⟩ [[]] chars ⟨[], ⟨false⟩, []⟩ [] := .eof [] hnl rfl
    exact ⟨1, _, _, .line ((readsLine_iff ⟨hkept, rfl⟩ hcr).2 hread) (.nil _), rfl⟩
  | @last kept m w hpush hw =>
    refine collects_drain (by simp) (fun chars hnl => ?_) chars
    have hm : m ≠ [] := by
      rintro rfl
      cases w <;> cases hpush
    have hmem : '\n' ∈ chars ++ (w ++ ['\n']) := by simp
    have hread := ReadsLine.more (f := ⟨kept, ⟨false⟩, chars⟩) hnl hm hpush (.newline [] hmem)
    have hafter : afterLine (chars ++ (w ++ ['\n'])) = [] := by
      rw [← List.append_assoc]
      exact afterLine_append (by simp [hnl, hw]) []
    refine ⟨1, _, _, .line ((readsLine_iff ⟨hkept, rfl⟩ hcr).2 hread) (.nil _), ?_⟩
    simp [content, hafter]
  | @skip queue h ih =>
    refine collects_drain (by simp) (fun chars hnl => ?_) chars
    rw [List.forall_mem_cons] at hcr
    have hread : ReadsLine ⟨[], ⟨false⟩, chars⟩ ([] :: queue) chars ⟨[], ⟨false⟩, []⟩ queue :=
      .eof queue hnl rfl
    obtain ⟨n, t, f', hrest, hend⟩ := ih hkept hcr.2 []
    refine ⟨n + 1, _, f', .line ((readsLine_iff ⟨hkept, rfl⟩ ?_).2 hread) hrest, hend⟩
    exact List.forall_mem_cons.2 hcr
  | @next kept kept' m queue s hm hpush hdelivers ih =>
    refine collects_drain (by simp) (fun chars hnl => ?_) chars
    rw [List.forall_mem_cons] at hcr
    obtain ⟨n, t, f', hrest, hend⟩ := ih (pushBytes_isFront hkept hpush) hcr.2 (chars ++ s)
    exact ⟨n, t, f', hrest.more hkept hnl hm hcr.1 hpush hdelivers.ne_nil, hend⟩

/-- **Which queues are returned whole**, without a wait: their text is the bytes of
the messages, if and only if there is no carriage return in them and the queue
delivers. -/
theorem collects_iff_delivers (hqueue : queue ≠ []) :
    (∃ n t f', Collects opened queue n t f' ∧ encode t = queue.flatten) ↔
      Delivers [] queue ∧ 13 ∉ queue.flatten := by
  constructor
  · rintro ⟨n, t, f', hcollects, ht⟩
    have hcr : 13 ∉ queue.flatten := by
      rw [← ht]
      exact not_mem_encode (by decide) (hcollects.no_cr List.not_mem_nil)
    have hmem : ∀ m ∈ queue, 13 ∉ m := fun m hm h => hcr (List.mem_flatten.2 ⟨m, hm, h⟩)
    have hall := hcollects.conserves clean_opened hmem
    rw [ht] at hall
    have hend : content f' = [] := List.append_right_eq_self.1 hall
    exact ⟨hcollects.delivers clean_opened hmem hqueue hend, hcr⟩
  · rintro ⟨hdelivers, hcr⟩
    have hmem : ∀ m ∈ queue, 13 ∉ m := fun m hm h => hcr (List.mem_flatten.2 ⟨m, hm, h⟩)
    obtain ⟨n, t, f', hcollects, hend⟩ := hdelivers.collects isFront_nil hmem []
    have hall := hcollects.conserves clean_opened hmem
    rw [hend, List.append_nil] at hall
    exact ⟨n, t, f', hcollects, hall⟩

end Collects

/-! ## The queues that deliver, in terms of their bytes -/

/-- The messages between the ends of the file. -/
def fileRuns (queue : List Bytes) : List (List Bytes) := queue.splitOn []

theorem fileRuns_nil_cons (queue : List Bytes) : fileRuns ([] :: queue) = [] :: fileRuns queue := by
  unfold fileRuns
  rw [List.splitOn_cons_eq_if_modifyHead]
  simp

theorem fileRuns_cons {m : Bytes} (hm : m ≠ []) (queue : List Bytes) :
    fileRuns (m :: queue) = (fileRuns queue).modifyHead (m :: ·) := by
  unfold fileRuns
  rw [List.splitOn_cons_eq_if_modifyHead, if_neg (by simpa using hm)]

/-- The first of these runs goes on where some bytes were kept, and every run is
text. -/
def RunsDecode (kept : Bytes) : List (List Bytes) → Prop
  | [] => True
  | run :: runs =>
    (∃ s, pushBytes kept run.flatten = some (s, [])) ∧ ∀ run ∈ runs, decode run.flatten ≠ none

theorem runsDecode_nil_iff (runs : List (List Bytes)) :
    RunsDecode [] runs ↔ ∀ run ∈ runs, decode run.flatten ≠ none := by
  cases runs with
  | nil => simp [RunsDecode]
  | cons run runs =>
    rw [RunsDecode, List.forall_mem_cons, Option.ne_none_iff_exists']
    simp only [pushBytes_eq_some_nil_iff]

/-- A run that begins with a message. -/
theorem runsDecode_modifyHead {kept : Bytes} {m : Bytes} {runs : List (List Bytes)}
    (hruns : runs ≠ []) :
    RunsDecode kept (runs.modifyHead (m :: ·)) ↔
      ∃ s kept', pushBytes kept m = some (s, kept') ∧ RunsDecode kept' runs := by
  obtain ⟨run, runs, rfl⟩ := List.exists_cons_of_ne_nil hruns
  show (∃ s, pushBytes kept (m ++ run.flatten) = some (s, [])) ∧ _ ↔ _
  rw [pushBytes_append]
  constructor
  · rintro ⟨⟨s, hs⟩, hruns⟩
    obtain ⟨⟨s₁, kept'⟩, hm, hs⟩ := Option.bind_eq_some_iff.1 hs
    obtain ⟨⟨s₂, kept₂⟩, hrun, heq⟩ := Option.bind_eq_some_iff.1 hs
    cases heq
    exact ⟨s₁, kept', hm, ⟨s₂, hrun⟩, hruns⟩
  · rintro ⟨s₁, kept', hm, ⟨s₂, hrun⟩, hruns⟩
    refine ⟨⟨s₁ ++ s₂, ?_⟩, hruns⟩
    rw [hm, Option.bind_some, hrun, Option.bind_some]

/-- The last message is empty, or ends its only line. -/
def EndsLine (queue : List Bytes) : Prop :=
  ∃ m ∈ queue.getLast?, m = [] ∨ ∃ w, m = w ++ [10] ∧ 10 ∉ w

/-- Bytes that end their only line stand for characters that do. -/
theorem endsLine_iff {kept m : Bytes} {s : Str} (hkept : IsFront kept)
    (hpush : pushBytes kept m = some (s, [])) (hm : m ≠ []) :
    (∃ w, m = w ++ [10] ∧ 10 ∉ w) ↔ ∃ w, s = w ++ ['\n'] ∧ '\n' ∉ w := by
  have hbytes : encode s = kept ++ m := by simpa using pushBytes_sound hpush
  have hten : (10 : UInt8) < 128 := by decide
  have hfront : 10 ∉ kept := fun h => hkept.ge 10 h hten
  constructor
  · rintro ⟨w, rfl, hw⟩
    rw [← List.append_assoc] at hbytes
    obtain ⟨a, b, rfl, ha, hb⟩ := exists_of_encode_eq_append hten hbytes
    obtain rfl : b = [] := encode_injective hb
    refine ⟨a, rfl, fun hmem => ?_⟩
    have hline := mem_encode hten hmem
    rw [ha, List.mem_append] at hline
    exact hline.elim hfront hw
  · rintro ⟨w, rfl, hw⟩
    obtain ⟨v, x, rfl⟩ := (List.eq_nil_or_concat m).resolve_left hm
    rw [List.concat_eq_append, ← List.append_assoc, encode_append] at hbytes
    obtain ⟨hline, hx⟩ := List.append_inj' hbytes rfl
    obtain rfl : 10 = x := List.singleton_inj.1 hx
    refine ⟨v, List.concat_eq_append, fun hv => ?_⟩
    exact not_mem_encode hten hw (hline ▸ List.mem_append_right _ hv)

theorem delivers_eof_iff {kept : Bytes} : Delivers kept [[]] ↔ kept = [] := by
  constructor
  · intro h
    cases h with
    | eof => rfl
    | @last _ _ w hpush => cases w <;> cases hpush
    | skip h => exact absurd rfl h.ne_nil
    | next hm => exact absurd rfl hm
  · rintro rfl
    exact .eof

theorem delivers_last_iff {kept m : Bytes} (hm : m ≠ []) :
    Delivers kept [m] ↔ ∃ w, pushBytes kept m = some (w ++ ['\n'], []) ∧ '\n' ∉ w := by
  constructor
  · intro h
    cases h with
    | eof => exact absurd rfl hm
    | last hpush hw => exact ⟨_, hpush, hw⟩
    | skip h => exact absurd rfl h.ne_nil
    | next _ _ h => exact absurd rfl h.ne_nil
  · rintro ⟨w, hpush, hw⟩
    exact .last hpush hw

theorem delivers_skip_iff {kept : Bytes} {queue : List Bytes} (hqueue : queue ≠ []) :
    Delivers kept ([] :: queue) ↔ kept = [] ∧ Delivers [] queue := by
  constructor
  · intro h
    cases h with
    | eof => exact absurd rfl hqueue
    | last => exact absurd rfl hqueue
    | skip h => exact ⟨rfl, h⟩
    | next hm => exact absurd rfl hm
  · rintro ⟨rfl, h⟩
    exact .skip h

theorem delivers_next_iff {kept m : Bytes} {queue : List Bytes} (hm : m ≠ []) (hqueue : queue ≠ []) :
    Delivers kept (m :: queue) ↔
      ∃ s kept', pushBytes kept m = some (s, kept') ∧ Delivers kept' queue := by
  constructor
  · intro h
    cases h with
    | eof => exact absurd rfl hm
    | last => exact absurd rfl hqueue
    | skip => exact absurd rfl hm
    | next _ hpush h => exact ⟨_, _, hpush, h⟩
  · rintro ⟨s, kept', hpush, h⟩
    exact .next hm hpush h

theorem endsLine_cons {m : Bytes} {queue : List Bytes} (hqueue : queue ≠ []) :
    EndsLine (m :: queue) ↔ EndsLine queue := by
  obtain ⟨m', queue, rfl⟩ := List.exists_cons_of_ne_nil hqueue
  rw [EndsLine, List.getLast?_cons_cons, EndsLine]

/-- **The queues that deliver**: every run between two ends of the file is text,
and the last message is empty or ends its only line. -/
theorem delivers_iff {kept : Bytes} {queue : List Bytes} (hkept : IsFront kept) :
    Delivers kept queue ↔ RunsDecode kept (fileRuns queue) ∧ EndsLine queue := by
  induction queue generalizing kept with
  | nil => exact iff_of_false (fun h => h.ne_nil rfl) (by simp [EndsLine])
  | cons m queue ih =>
    by_cases hqueue : queue = []
    · subst hqueue
      by_cases hm : m = []
      · subst hm
        have hdecode : decode [] = some [] := rfl
        rw [delivers_eof_iff, fileRuns_nil_cons]
        simp [fileRuns, RunsDecode, EndsLine, hdecode]
      · have hdecode : RunsDecode kept [[m]] ↔ ∃ s, pushBytes kept m = some (s, []) := by
          simp [RunsDecode]
        have hends : EndsLine [m] ↔ ∃ w, m = w ++ [10] ∧ 10 ∉ w := by simp [EndsLine, hm]
        rw [delivers_last_iff hm, fileRuns_cons hm, hends]
        show _ ↔ RunsDecode kept [[m]] ∧ _
        rw [hdecode]
        constructor
        · rintro ⟨w, hpush, hw⟩
          exact ⟨⟨_, hpush⟩, (endsLine_iff hkept hpush hm).2 ⟨w, rfl, hw⟩⟩
        · rintro ⟨⟨s, hpush⟩, hends⟩
          obtain ⟨w, rfl, hw⟩ := (endsLine_iff hkept hpush hm).1 hends
          exact ⟨w, hpush, hw⟩
    · have hruns : fileRuns queue ≠ [] := List.splitOn_ne_nil _ _
      rw [endsLine_cons hqueue]
      by_cases hm : m = []
      · subst hm
        rw [delivers_skip_iff hqueue, fileRuns_nil_cons, ih isFront_nil, RunsDecode,
          runsDecode_nil_iff]
        simp [and_assoc]
      · rw [delivers_next_iff hm hqueue, fileRuns_cons hm, runsDecode_modifyHead hruns]
        constructor
        · rintro ⟨s, kept', hpush, h⟩
          obtain ⟨hdecode, hends⟩ := (ih (pushBytes_isFront hkept hpush)).1 h
          exact ⟨⟨s, kept', hpush, hdecode⟩, hends⟩
        · rintro ⟨⟨s, kept', hpush, hdecode⟩, hends⟩
          exact ⟨s, kept', hpush, (ih (pushBytes_isFront hkept hpush)).2 ⟨hdecode, hends⟩⟩

end Text
