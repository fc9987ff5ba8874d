import Hareflow.Wire.ServerCommands

/-!
# Decoders on arbitrary bytes

The decoders of the server frames are compositions of the `read_*` functions. `Decoder allowed f` is
the text of such a composition `f`: what it calls in which order, with the exceptions other than
`InvalidInputException` that it may throw. `Decoder.trace` lists what a run does to its buffer: the
indices it uses, where it moves the cursor, which calls it completes and how far its loops come.

By induction on the text, for every composition:

* `Decoder.stays`: only the cursor of the buffer changes, and it stays within the buffer;
* `Decoder.throws`: what is thrown is `InvalidInputException` or allowed;
* `Decoder.trace_safe`: every event of a run is safe (`Event.Safe`);
* `Decoder.trace_complete`: a run that returns has completed all of its loops;
* `Decoder.extends`: what follows the bytes that were read does not matter.
-/

namespace Hareflow.Wire

open BinaryBuffer

/-! ## Readers that move the cursor forward -/

/-- Whenever `f` returns, it has moved the cursor by at least `n` bytes. -/
def Advances {α : Type} (f : Reader α) (n : ℕ) : Prop :=
  ∀ (b b' : BinaryBuffer) (v : α), f b = .ok (v, b') → b.readCursor + n ≤ b'.readCursor

theorem get_eq_ok {n : ℕ} {b b' : BinaryBuffer} {data : Bytes} (h : get n b = .ok (data, b')) :
    b.readCursor + n ≤ b.bytes.length ∧ data = (b.bytes.drop b.readCursor).take n ∧
      b' = { b with readCursor := b.readCursor + n } := by
  rw [BinaryBuffer.get] at h
  split at h
  · cases h
  · cases h
    exact ⟨by omega, rfl, rfl⟩

namespace Advances

variable {α β : Type} {f : Reader α} {g : α → Reader β} {m n : ℕ}

theorem mono (hf : Advances f n) (h : m ≤ n) : Advances f m := by
  intro b b' v hrun
  have := hf b b' v hrun
  omega

theorem pure (v : α) : Advances (Pure.pure v) 0 := by
  intro b b' u h
  cases h
  rfl

theorem get (n : ℕ) : Advances (BinaryBuffer.get n) n := by
  intro b b' data h
  obtain ⟨-, -, rfl⟩ := get_eq_ok h
  rfl

theorem bind (hf : Advances f m) (hg : ∀ v, Advances (g v) n) : Advances (f >>= g) (m + n) := by
  intro b b' v h
  obtain ⟨u, c, hfirst, hrest⟩ := read_bind_eq_ok.1 h
  have h₁ := hf b c u hfirst
  have h₂ := hg u c b' v hrest
  omega

theorem ite {c : Prop} [Decidable c] {f' : Reader α} (hf : c → Advances f n)
    (hf' : ¬c → Advances f' n) : Advances (if c then f else f') n := by
  split
  · rename_i hc
    exact hf hc
  · rename_i hc
    exact hf' hc

theorem readByte : Advances BinaryBuffer.readByte 1 := (get 1).bind fun _ => pure _

theorem readUshort : Advances BinaryBuffer.readUshort 2 := (get 2).bind fun _ => pure _

theorem readUint : Advances BinaryBuffer.readUint 4 := (get 4).bind fun _ => pure _

theorem readUlong : Advances BinaryBuffer.readUlong 8 := (get 8).bind fun _ => pure _

theorem readShort : Advances BinaryBuffer.readShort 2 := readUshort.bind fun _ => pure _

theorem readInt : Advances BinaryBuffer.readInt 4 := readUint.bind fun _ => pure _

theorem readLong : Advances BinaryBuffer.readLong 8 := readUlong.bind fun _ => pure _

theorem readBytes (n : ℕ) : Advances (BinaryBuffer.readBytes n) 0 :=
  ite (fun _ => pure _) fun _ => (get n).mono (Nat.zero_le n)

theorem readString : Advances BinaryBuffer.readString 2 :=
  readShort.bind fun _ => ite (fun _ => pure _) fun _ => (get _).mono (Nat.zero_le _)

theorem readBlob : Advances BinaryBuffer.readBlob 4 :=
  readInt.bind fun _ => ite (fun _ => pure _) fun _ => readBytes _

theorem readElems (hf : Advances f m) (k : ℕ) : Advances (BinaryBuffer.readElems f k) 0 := by
  induction k with
  | zero => exact pure []
  | succ k ih =>
    have hloop := hf.bind fun x => ih.bind fun xs => pure (x :: xs)
    exact hloop.mono (Nat.zero_le _)

theorem readArray (hf : Advances f m) : Advances (BinaryBuffer.readArray f) 4 :=
  readInt.bind fun _ => ite (fun _ => pure _) fun _ => hf.readElems _

theorem readElemsInto {γ : Type} (insert : γ → α → γ) (hf : Advances f m) (k : ℕ) (container : γ) :
    Advances (Wire.readElemsInto insert f k container) 0 := by
  rw [readElemsInto_eq]
  exact (hf.readElems k).bind fun _ => pure _

theorem readMap (h : Advances readProperty m) : Advances StringMap.read 4 :=
  readInt.bind fun _ => ite (fun _ => pure _) fun _ => h.readElemsInto _ _ _

end Advances

/-! ## Decoders and their traces -/

/-- What a run of a decoder does to a buffer of `size` bytes. -/
inductive Event
  /-- It uses the byte `i`. -/
  | index (i size : ℕ)
  /-- It assigns `m_read_cursor`. -/
  | cursor (position size : ℕ)
  /-- It completes a `read_*` call. -/
  | field (before after size : ℕ)
  /-- It enters a loop over `announced` elements, with `remaining` bytes behind the cursor, and
  completes this number of them. -/
  | loop (announced remaining completed : ℕ)
  deriving DecidableEq, Repr

namespace Event

/-- The indices are those of bytes of the buffer, the cursor stays within the buffer and does not go
back in a call, and a loop does not complete more elements of two bytes than there are bytes. -/
def Safe : Event → Prop
  | index i size => i < size
  | cursor position size => position ≤ size
  | field before after size => before ≤ after ∧ after ≤ size
  | loop announced remaining completed => completed ≤ announced ∧ 2 * completed ≤ remaining

/-- A loop has come to its end. -/
def Complete : Event → Prop
  | loop announced _ completed => completed = announced
  | _ => True

end Event

/-- A composition of the `read_*` functions. -/
inductive Decoder (allowed : StreamException → Prop) : {α : Type} → Reader α → Type 1
  | pure {α : Type} (v : α) : Decoder allowed (Pure.pure v)
  | throw {α : Type} {e : StreamException} (h : allowed e) :
    Decoder allowed (throw e : Reader α)
  /-- Check the length, use the bytes and move the cursor. -/
  | get (n : ℕ) (h : 0 < n) : Decoder allowed (BinaryBuffer.get n)
  /-- Move the cursor back by one. -/
  | unread : Decoder allowed unreadByte
  | bind {α β : Type} {f : Reader α} {k : α → Reader β} (first : Decoder allowed f)
    (rest : ∀ v, Decoder allowed (k v)) : Decoder allowed (f >>= k)
  | ite {α : Type} {c : Prop} [Decidable c] {f g : Reader α} (yes : c → Decoder allowed f)
    (no : ¬c → Decoder allowed g) : Decoder allowed (if c then f else g)
  /-- A `read_*` call. -/
  | field {α : Type} {f : Reader α} (call : Decoder allowed f) (h : Advances f 0) :
    Decoder allowed f
  /-- A loop over elements, each of which takes at least two bytes. -/
  | elems {α : Type} {f : Reader α} (elem : Decoder allowed f) (h : Advances f 2) (n : ℕ) :
    Decoder allowed (readElems f n)
  /-- Write the bytes to a buffer of its own and go on with this one. -/
  | copy {α β : Type} {f : Reader α} (g : α → β) (bytes : Bytes) (body : Decoder allowed f) :
    Decoder allowed (do
      let data ← BinaryBuffer.writeBytes bytes {}
      let r ← f data
      return g r.1)

/-- The elements that a loop completes. -/
def completed {α : Type} (f : Reader α) : ℕ → BinaryBuffer → ℕ
  | 0, _ => 0
  | n + 1, b =>
    match f b with
    | .ok (_, b') => completed f n b' + 1
    | .error _ => 0

/-- What happens after a call that returns. -/
def afterOk {α : Type} (r : Except StreamException (α × BinaryBuffer))
    (k : α → BinaryBuffer → List Event) : List Event :=
  match r with
  | .ok (v, b) => k v b
  | .error _ => []

@[simp] theorem mem_afterOk {α : Type} {r : Except StreamException (α × BinaryBuffer)}
    {k : α → BinaryBuffer → List Event} {e : Event} :
    e ∈ afterOk r k ↔ ∃ v b, r = .ok (v, b) ∧ e ∈ k v b := by
  rcases r with e | ⟨v, b⟩ <;> simp [afterOk]

/-- What a loop does, from what an element does. -/
def loopTrace {α : Type} (f : Reader α) (trace : BinaryBuffer → List Event) :
    ℕ → BinaryBuffer → List Event
  | 0, _ => []
  | n + 1, b => trace b ++ afterOk (f b) fun _ b' => loopTrace f trace n b'

namespace Decoder

variable {allowed : StreamException → Prop} {α : Type} {f : Reader α}

/-- What a run does. -/
def trace {α : Type} {f : Reader α} : Decoder allowed f → BinaryBuffer → List Event
  | .pure _, _ => []
  | .throw _, _ => []
  | .get n _, b =>
    if b.bytes.length < b.readCursor + n then []
    else (List.range' b.readCursor n).map (.index · b.bytes.length) ++
      [.cursor (b.readCursor + n) b.bytes.length]
  | .unread, b => [.cursor (b.readCursor - 1) b.bytes.length]
  | .bind (f := f) first rest, b => first.trace b ++ afterOk (f b) fun v b' => (rest v).trace b'
  | @ite _ _ c _ _ _ yes no, b => if h : c then (yes h).trace b else (no h).trace b
  | .field (f := f) call _, b =>
    call.trace b ++ afterOk (f b) fun _ b' => [.field b.readCursor b'.readCursor b.bytes.length]
  | .elems (f := f) elem _ n, b =>
    .loop n (b.bytes.length - b.readCursor) (completed f n b) :: loopTrace f elem.trace n b
  | .copy _ bytes body, _ =>
    match BinaryBuffer.writeBytes bytes {} with
    | .ok data => (List.range bytes.length).map (.index · bytes.length) ++ body.trace data
    | .error _ => []

end Decoder

/-! ## What holds of every composition -/

/-- The buffer followed by more bytes. -/
def extend (b : BinaryBuffer) (extra : Bytes) : BinaryBuffer := { b with bytes := b.bytes ++ extra }

/-- A reader that leaves the buffer as it is, up to the cursor, and throws what it may. -/
structure Tame (allowed : StreamException → Prop) {α : Type} (f : Reader α) : Prop where
  /-- Only the cursor changes, and it stays within the buffer. -/
  stays : ∀ (b b' : BinaryBuffer) (v : α), b.readCursor ≤ b.bytes.length → f b = .ok (v, b') →
    b'.readCursor ≤ b.bytes.length ∧ b' = { b with readCursor := b'.readCursor }
  throws : ∀ (b : BinaryBuffer) (e : StreamException), f b = .error e →
    (∃ text, e = .invalidInput text) ∨ allowed e
  /-- What follows the bytes that were read does not matter. -/
  extends_ok : ∀ (b b' : BinaryBuffer) (v : α) (extra : Bytes), f b = .ok (v, b') →
    f (extend b extra) = .ok (v, extend b' extra)

namespace Tame

variable {allowed : StreamException → Prop} {α β : Type} {f g : Reader α} {k : α → Reader β}

theorem pure (v : α) : Tame allowed (Pure.pure v : Reader α) where
  stays := by
    rintro b b' u hb h
    cases h
    exact ⟨hb, rfl⟩
  throws := fun _ _ h => nomatch h
  extends_ok := by
    rintro b b' u extra h
    cases h
    rfl

theorem throw {e : StreamException} (h : (∃ text, e = .invalidInput text) ∨ allowed e) :
    Tame allowed (throw e : Reader α) where
  stays := fun _ _ _ _ h => nomatch h
  throws := by
    rintro b e' he
    cases he
    exact h
  extends_ok := fun _ _ _ _ h => nomatch h

theorem get (n : ℕ) : Tame allowed (BinaryBuffer.get n) where
  stays := by
    intro b b' data _ h
    obtain ⟨hle, -, rfl⟩ := get_eq_ok h
    exact ⟨hle, rfl⟩
  throws := by
    intro b e h
    rw [BinaryBuffer.get] at h
    split at h
    · cases h
      exact .inl ⟨_, rfl⟩
    · cases h
  extends_ok := by
    intro b b' data extra h
    obtain ⟨hle, rfl, rfl⟩ := get_eq_ok h
    have hlong : ¬(b.bytes ++ extra).length < b.readCursor + n := by
      rw [List.length_append]
      omega
    have hsame : ((b.bytes ++ extra).drop b.readCursor).take n =
        (b.bytes.drop b.readCursor).take n := by
      rw [List.drop_append_of_le_length (by omega),
        List.take_append_of_le_length (by rw [List.length_drop]; omega)]
    rw [extend, BinaryBuffer.get, if_neg hlong, hsame]
    rfl

theorem unread : Tame allowed unreadByte where
  stays := by
    intro b b' v _ h
    rw [unreadByte, setReadCursor] at h
    split at h
    · cases h
    · rename_i hle
      cases h
      exact ⟨Nat.not_lt.1 hle, rfl⟩
  throws := by
    intro b e h
    rw [unreadByte, setReadCursor] at h
    split at h
    · cases h
      exact .inl ⟨_, rfl⟩
    · cases h
  extends_ok := by
    intro b b' v extra h
    rw [unreadByte, setReadCursor] at h
    split at h
    · cases h
    · cases h
      have hlong : ¬(b.bytes ++ extra).length < b.readCursor - 1 := by
        rw [List.length_append]
        omega
      rw [extend, unreadByte, setReadCursor, if_neg hlong]
      rfl

theorem bind (hf : Tame allowed f) (hk : ∀ v, Tame allowed (k v)) : Tame allowed (f >>= k) where
  stays := by
    intro b b' v hb h
    obtain ⟨u, c, hfirst, hrest⟩ := read_bind_eq_ok.1 h
    obtain ⟨hc, hcb⟩ := hf.stays b c u hb hfirst
    have hbytes : c.bytes = b.bytes := by rw [hcb]
    obtain ⟨hb', hbc⟩ := (hk u).stays c b' v (hbytes ▸ hc) hrest
    refine ⟨hbytes ▸ hb', ?_⟩
    rw [hbc, hcb]
  throws := by
    intro b e h
    obtain hfirst | ⟨u, c, -, hrest⟩ := read_bind_eq_error.1 h
    · exact hf.throws b e hfirst
    · exact (hk u).throws c e hrest
  extends_ok := by
    intro b b' v extra h
    obtain ⟨u, c, hfirst, hrest⟩ := read_bind_eq_ok.1 h
    exact read_bind_eq_ok.2
      ⟨u, _, hf.extends_ok b c u extra hfirst, (hk u).extends_ok c b' v extra hrest⟩

theorem ite {c : Prop} [Decidable c] (hf : c → Tame allowed f) (hg : ¬c → Tame allowed g) :
    Tame allowed (if c then f else g) := by
  split
  · rename_i hc
    exact hf hc
  · rename_i hc
    exact hg hc

theorem readElems (hf : Tame allowed f) (n : ℕ) : Tame allowed (BinaryBuffer.readElems f n) := by
  induction n with
  | zero => exact pure []
  | succ n ih => exact hf.bind fun x => ih.bind fun xs => pure (x :: xs)

/-- A computation that does not touch the buffer. -/
theorem lift {x : Except StreamException α}
    (h : ∀ e, x = .error e → (∃ text, e = .invalidInput text) ∨ allowed e) :
    Tame allowed (liftM x : Reader α) := by
  cases x with
  | ok v => exact pure v
  | error e => exact throw (h e rfl)

/-- The copy of some bytes is as long as they are, with its cursor at the start. -/
theorem writeBytes_empty_eq_ok {bytes : Bytes} {data : BinaryBuffer}
    (h : BinaryBuffer.writeBytes bytes {} = .ok data) : data = ⟨bytes, 0, bytes.length⟩ := by
  obtain hsize | hsize := Nat.lt_or_ge uint32Max bytes.length
  · rw [DeliverCommand.writeBytes_empty_of_lt hsize] at h
    cases h
  · rw [DeliverCommand.writeBytes_empty hsize] at h
    exact (Except.ok.inj h).symm

theorem writeBytes (bytes : Bytes) : Tame allowed (liftM (BinaryBuffer.writeBytes bytes {})) := by
  apply lift
  intro e h
  obtain hsize | hsize := Nat.lt_or_ge uint32Max bytes.length
  · rw [DeliverCommand.writeBytes_empty_of_lt hsize] at h
    cases h
    exact .inl ⟨_, rfl⟩
  · rw [DeliverCommand.writeBytes_empty hsize] at h
    cases h

end Tame

namespace Decoder

variable {allowed : StreamException → Prop} {α : Type} {f : Reader α}

theorem tame (d : Decoder allowed f) : Tame allowed f := by
  induction d with
  | pure v => exact .pure v
  | throw h => exact .throw (.inr h)
  | get n h => exact .get n
  | unread => exact .unread
  | bind _ _ hfirst hrest => exact hfirst.bind hrest
  | ite _ _ hyes hno => exact .ite hyes hno
  | field _ _ hcall => exact hcall
  | elems _ _ n helem => exact helem.readElems n
  | copy g bytes _ hbody =>
    refine (Tame.writeBytes bytes).bind fun data => ?_
    exact (Tame.lift (hbody.throws data)).bind fun r => .pure (g r.1)

/-! ### The events of a run -/

theorem inBounds_of_ok (d : Decoder allowed f) {b b' : BinaryBuffer} {v : α}
    (hb : b.readCursor ≤ b.bytes.length) (h : f b = .ok (v, b')) :
    b'.readCursor ≤ b'.bytes.length ∧ b'.bytes.length = b.bytes.length := by
  obtain ⟨hle, heq⟩ := d.tame.stays b b' v hb h
  have hbytes : b'.bytes = b.bytes := by rw [heq]
  exact ⟨hbytes ▸ hle, congrArg List.length hbytes⟩

theorem completed_le (f : Reader α) (n : ℕ) (b : BinaryBuffer) : completed f n b ≤ n := by
  induction n generalizing b with
  | zero => exact Nat.le_refl 0
  | succ n ih =>
    rw [completed]
    split
    · exact Nat.succ_le_succ (ih _)
    · exact Nat.zero_le _

/-- Each of the elements of a loop takes two of the bytes behind the cursor. -/
theorem two_mul_completed_le (d : Decoder allowed f) (hf : Advances f 2) (n : ℕ) {b : BinaryBuffer}
    (hb : b.readCursor ≤ b.bytes.length) :
    2 * completed f n b ≤ b.bytes.length - b.readCursor := by
  induction n generalizing b with
  | zero => exact Nat.zero_le _
  | succ n ih =>
    rw [completed]
    split
    · rename_i v b' hrun
      obtain ⟨hb', hlen⟩ := d.inBounds_of_ok hb hrun
      have hmoved := hf b b' v hrun
      have hrest := ih hb'
      omega
    · exact Nat.zero_le _

theorem exists_of_mem_loopTrace (d : Decoder allowed f) {t : BinaryBuffer → List Event} {n : ℕ}
    {b : BinaryBuffer} {e : Event} (hb : b.readCursor ≤ b.bytes.length)
    (he : e ∈ loopTrace f t n b) : ∃ c, c.readCursor ≤ c.bytes.length ∧ e ∈ t c := by
  induction n generalizing b with
  | zero => cases he
  | succ n ih =>
    rw [loopTrace, List.mem_append, mem_afterOk] at he
    obtain he | ⟨v, b', hrun, he⟩ := he
    · exact ⟨b, hb, he⟩
    · exact ih (d.inBounds_of_ok hb hrun).1 he

/-- **Every event of a run is safe.** -/
theorem trace_safe (d : Decoder allowed f) {b : BinaryBuffer} (hb : b.readCursor ≤ b.bytes.length)
    {e : Event} (he : e ∈ d.trace b) : e.Safe := by
  induction d generalizing b with
  | pure v => cases he
  | throw h => cases he
  | get n hn =>
    rw [trace] at he
    split at he
    · cases he
    · rename_i hlong
      simp only [List.mem_append, List.mem_map, List.mem_range'_1, List.mem_singleton] at he
      obtain ⟨i, hi, rfl⟩ | rfl := he
      · show i < b.bytes.length
        omega
      · exact Nat.not_lt.1 hlong
  | unread =>
    rw [trace, List.mem_singleton] at he
    subst he
    exact (Nat.sub_le _ 1).trans hb
  | bind first rest hfirst hrest =>
    rw [trace, List.mem_append, mem_afterOk] at he
    obtain he | ⟨v, b', hrun, he⟩ := he
    · exact hfirst hb he
    · exact hrest v (first.inBounds_of_ok hb hrun).1 he
  | ite yes no hyes hno =>
    rw [trace] at he
    split at he
    · exact hyes _ hb he
    · exact hno _ hb he
  | field call h hcall =>
    rw [trace, List.mem_append, mem_afterOk] at he
    obtain he | ⟨v, b', hrun, he⟩ := he
    · exact hcall hb he
    · rw [List.mem_singleton] at he
      subst he
      obtain ⟨hb', hlen⟩ := call.inBounds_of_ok hb hrun
      exact ⟨h b b' v hrun, hlen ▸ hb'⟩
  | elems elem h n helem =>
    rw [trace, List.mem_cons] at he
    obtain rfl | he := he
    · exact ⟨completed_le _ n b, elem.two_mul_completed_le h n hb⟩
    · obtain ⟨c, hc, he⟩ := elem.exists_of_mem_loopTrace hb he
      exact helem hc he
  | copy g bytes body hbody =>
    rw [trace] at he
    split at he
    · rename_i data hwrite
      rw [List.mem_append, List.mem_map] at he
      obtain ⟨i, hi, rfl⟩ | he := he
      · exact List.mem_range.1 hi
      · obtain rfl := Tame.writeBytes_empty_eq_ok hwrite
        exact hbody (Nat.zero_le _) he
    · cases he

theorem completed_of_ok {n : ℕ} {b : BinaryBuffer} {r : List α × BinaryBuffer}
    (h : readElems f n b = .ok r) : completed f n b = n := by
  induction n generalizing b r with
  | zero => rfl
  | succ n ih =>
    obtain ⟨v, b', hrun, h⟩ := read_bind_eq_ok.1 h
    obtain ⟨vs, b'', hrest, -⟩ := read_bind_eq_ok.1 h
    rw [completed, hrun]
    exact congrArg Nat.succ (ih hrest)

theorem exists_ok_of_mem_loopTrace {t : BinaryBuffer → List Event} {n : ℕ} {b : BinaryBuffer}
    {r : List α × BinaryBuffer} {e : Event} (h : readElems f n b = .ok r)
    (he : e ∈ loopTrace f t n b) : ∃ c q, f c = .ok q ∧ e ∈ t c := by
  induction n generalizing b r with
  | zero => cases he
  | succ n ih =>
    obtain ⟨v, b', hrun, h⟩ := read_bind_eq_ok.1 h
    obtain ⟨vs, b'', hrest, -⟩ := read_bind_eq_ok.1 h
    rw [loopTrace, List.mem_append, hrun] at he
    obtain he | he := he
    · exact ⟨b, _, hrun, he⟩
    · exact ih hrest he

/-- **A run that returns has completed its loops.** -/
theorem trace_complete (d : Decoder allowed f) {b : BinaryBuffer} {r : α × BinaryBuffer}
    (h : f b = .ok r) {e : Event} (he : e ∈ d.trace b) : e.Complete := by
  induction d generalizing b with
  | pure v => cases he
  | throw h => cases he
  | get n hn =>
    rw [trace] at he
    split at he
    · cases he
    · simp only [List.mem_append, List.mem_map, List.mem_singleton] at he
      obtain ⟨i, -, rfl⟩ | rfl := he <;> trivial
  | unread =>
    rw [trace, List.mem_singleton] at he
    subst he
    trivial
  | bind first rest hfirst hrest =>
    obtain ⟨v, b', hrun, h⟩ := read_bind_eq_ok.1 h
    rw [trace, List.mem_append, hrun] at he
    obtain he | he := he
    · exact hfirst hrun he
    · exact hrest v h he
  | ite yes no hyes hno =>
    rw [trace] at he
    split at he
    · rename_i hc
      rw [if_pos hc] at h
      exact hyes hc h he
    · rename_i hc
      rw [if_neg hc] at h
      exact hno hc h he
  | field call ha hcall =>
    rw [trace, List.mem_append, mem_afterOk] at he
    obtain he | ⟨v, b', -, he⟩ := he
    · exact hcall h he
    · rw [List.mem_singleton] at he
      subst he
      trivial
  | elems elem ha n helem =>
    rw [trace, List.mem_cons] at he
    obtain rfl | he := he
    · exact completed_of_ok h
    · obtain ⟨c, q, hrun, he⟩ := exists_ok_of_mem_loopTrace h he
      exact helem hrun he
  | copy g bytes body hbody =>
    obtain ⟨data, hwrite, h⟩ := lift_bind_eq_ok.1 h
    obtain ⟨q, hrun, -⟩ := lift_bind_eq_ok.1 h
    rw [trace, hwrite, List.mem_append, List.mem_map] at he
    obtain ⟨i, -, rfl⟩ | he := he
    · trivial
    · exact hbody hrun he

/-! ## The `read_*` functions -/

theorem toNatClampNeg_pos_of_short {length : Int16} (h : ¬length ≤ 0) :
    0 < length.toNatClampNeg := by
  rw [Int16.le_iff_toInt_le] at h
  have hpos : 0 < length.toInt := by simpa using h
  rw [Int16.toNatClampNeg]
  omega

/-- A call that reads a number of `n` bytes. -/
def number {n : ℕ} {g : Bytes → α} (hn : 0 < n) :
    Decoder allowed (BinaryBuffer.get n >>= fun data => Pure.pure (g data)) :=
  .field (.bind (.get n hn) fun _ => .pure _)
    (((Advances.get n).bind fun _ => .pure _).mono (Nat.zero_le _))

def readByte : Decoder allowed BinaryBuffer.readByte := number Nat.one_pos

def readUshort : Decoder allowed BinaryBuffer.readUshort := number Nat.two_pos

def readUint : Decoder allowed BinaryBuffer.readUint := number (Nat.succ_pos 3)

def readUlong : Decoder allowed BinaryBuffer.readUlong := number (Nat.succ_pos 7)

def readShort : Decoder allowed BinaryBuffer.readShort :=
  .field (.bind (.bind (.get 2 Nat.two_pos) fun _ => .pure _) fun _ => .pure _)
    (Advances.readShort.mono (Nat.zero_le _))

def readInt : Decoder allowed BinaryBuffer.readInt :=
  .field (.bind (.bind (.get 4 (Nat.succ_pos 3)) fun _ => .pure _) fun _ => .pure _)
    (Advances.readInt.mono (Nat.zero_le _))

def readLong : Decoder allowed BinaryBuffer.readLong :=
  .field (.bind (.bind (.get 8 (Nat.succ_pos 7)) fun _ => .pure _) fun _ => .pure _)
    (Advances.readLong.mono (Nat.zero_le _))

def readBytes (count : ℕ) : Decoder allowed (BinaryBuffer.readBytes count) :=
  .field (.ite (fun _ => .pure _) fun h => .get count (Nat.pos_of_ne_zero h)) (.readBytes count)

def readString : Decoder allowed BinaryBuffer.readString :=
  .field
    (.bind readShort fun _ =>
      .ite (fun _ => .pure _) fun h => .get _ (toNatClampNeg_pos_of_short h))
    (Advances.readString.mono (Nat.zero_le _))

def readBlob : Decoder allowed BinaryBuffer.readBlob :=
  .field (.bind readInt fun _ => .ite (fun _ => .pure _) fun _ => readBytes _)
    (Advances.readBlob.mono (Nat.zero_le _))

def readArray (elem : Decoder allowed f) (h : Advances f 2) :
    Decoder allowed (BinaryBuffer.readArray f) :=
  .field (.bind readInt fun _ => .ite (fun _ => .pure _) fun _ => .elems elem h _)
    (h.readArray.mono (Nat.zero_le _))

/-- A loop that inserts its elements into a container. -/
def elemsInto {γ : Type} (insert : γ → α → γ) (container : γ) (elem : Decoder allowed f)
    (h : Advances f 2) (n : ℕ) : Decoder allowed (readElemsInto insert f n container) :=
  (readElemsInto_eq insert f n container).symm ▸ .bind (.elems elem h n) fun _ => .pure _

/-- `read_array` into a map of strings. -/
def readMap (elem : Decoder allowed readProperty) (h : Advances readProperty 2) :
    Decoder allowed StringMap.read :=
  .field (.bind readInt fun _ => .ite (fun _ => .pure _) fun _ => elemsInto _ _ elem h _)
    (h.readMap.mono (Nat.zero_le _))

end Decoder

end Hareflow.Wire
