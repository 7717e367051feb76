import Websub.Lib.Transducer
import Websub.Signature

/-!
# The content of an update

`subscriber/update/content.rs`. `Content` is a request body that computes the signature of
what is read from it. `poll_data` polls the body, gives the verifier the bytes of a buffer
and returns the buffer as it is, and where the body ends asks the verifier.

A buffer may hand out its bytes in several chunks. A single chunk is absorbed at once, and
otherwise the buffer is cloned and the clone is advanced chunk by chunk. Either way the
verifier absorbs the bytes of the buffer (`holds_absorb`), so that at the end it has absorbed
everything that was read, and `poll_data` reports the end exactly if the signature is that of
it (`pollData_run`).

The verifier is reset when it is asked. So a poll after the end asks it about the empty message,
and gives the same verdict only where the signature fits both messages or neither
(`verdictFinal_iff`).
-/

namespace Websub

open Streams Transducers

variable {hmac : Hmac} {B β E : Type}

/-! ## The code -/

/-- `std::task::Poll`. -/
inductive Poll (α : Type)
  | ready (a : α)
  | pending
deriving DecidableEq

/-- What `poll_data` of a body with buffers `β` returns. -/
abbrev PollData (β E : Type) := Poll (Option (Except E β))

/-- `update::Error`. -/
inductive UpdateError (E : Type)
  | body (e : E)
  | signatureMismatch (e : SignatureMismatch)
deriving DecidableEq

/-- `Content`, of a body `B`. -/
structure Content (hmac : Hmac) (B : Type) where
  body : B
  verifier : Verifier hmac

/-- `Content::new`. -/
def Content.new (hmac : Hmac) (body : B) (signature : Signature) (secret : List UInt8) :
    Content hmac B :=
  ⟨body, signature.verifyWith hmac secret⟩

/-- The loop of `poll_data` over the chunks of the cloned buffer. It ends, as each round but
the last leaves fewer bytes. -/
def Verifier.absorbChunks (v : Verifier hmac) (buf : Buf β) (b : β) : Verifier hmac :=
  if buf.remaining (buf.advance b (buf.chunk b).length) = 0 then v.update (buf.chunk b)
  else (v.update (buf.chunk b)).absorbChunks buf (buf.advance b (buf.chunk b).length)
termination_by buf.remaining b
decreasing_by exact buf.remaining_advance_lt b ‹_›

/-- What `poll_data` does with a buffer. -/
def Verifier.absorb (v : Verifier hmac) (buf : Buf β) (b : β) : Verifier hmac :=
  if (buf.chunk b).length = buf.remaining b then v.update (buf.chunk b) else v.absorbChunks buf b

/-- `Content::poll_data`, with the `poll_data` of the body. -/
def Content.pollData (poll : B → PollData β E × B) (buf : Buf β) (c : Content hmac B) :
    PollData β (UpdateError E) × Content hmac B :=
  match poll c.body with
  | (.pending, body) => (.pending, { c with body })
  | (.ready (some (.error e)), body) => (.ready (some (.error (.body e))), { c with body })
  | (.ready (some (.ok b)), body) => (.ready (some (.ok b)), ⟨body, c.verifier.absorb buf b⟩)
  | (.ready none, body) =>
    match c.verifier.verifyReset with
    | (.error e, verifier) => (.ready (some (.error (.signatureMismatch e))), ⟨body, verifier⟩)
    | (.ok (), verifier) => (.ready none, ⟨body, verifier⟩)

/-! ## What the verifier absorbs -/

section Absorb

variable {v : Verifier hmac} {sig : Signature} {secret message : List UInt8}

theorem holds_absorbChunks (buf : Buf β) (h : v.Holds sig secret message) (b : β) :
    (v.absorbChunks buf b).Holds sig secret (message ++ buf.bytes b) := by
  fun_induction Verifier.absorbChunks v buf b generalizing message with
  | case1 v b hlast =>
    have hbytes : buf.chunk b = buf.bytes b := by
      rw [← buf.chunk_append b, buf.bytes_eq_nil _ hlast, List.append_nil]
    rw [← hbytes]
    exact h.update _
  | case2 v b hmore ih =>
    have hrest := ih (h.update (buf.chunk b))
    rw [List.append_assoc, buf.chunk_append] at hrest
    exact hrest

/-- The verifier absorbs the bytes of a buffer, however it is cut. -/
theorem holds_absorb (buf : Buf β) (h : v.Holds sig secret message) (b : β) :
    (v.absorb buf b).Holds sig secret (message ++ buf.bytes b) := by
  unfold Verifier.absorb
  split
  · rename_i hall
    rw [← buf.chunk_eq_bytes b hall]
    exact h.update _
  · exact holds_absorbChunks buf h b

end Absorb

/-! ## Whole bodies -/

/-- A result of `poll_data` before the end of the body. -/
inductive BodyResult (β E : Type)
  | data (b : β)
  | pending
  | error (e : E)

/-- The result, as `poll_data` returns it. -/
def BodyResult.poll {F : Type} (f : E → F) : BodyResult β E → PollData β F
  | data b => .ready (some (.ok b))
  | pending => .pending
  | error e => .ready (some (.error (f e)))

/-- The bytes of a result. -/
def BodyResult.bytes (buf : Buf β) : BodyResult β E → List UInt8
  | data b => buf.bytes b
  | pending | error _ => []

/-- The body yields the results, one for each poll, and then ends. -/
def Yields (poll : B → PollData β E × B) : B → List (BodyResult β E) → Prop
  | body, [] => (poll body).1 = .ready none
  | body, r :: rs => (poll body).1 = r.poll id ∧ Yields poll (poll body).2 rs

/-- Polls of the content, with their results. -/
def Content.polls (poll : B → PollData β E × B) (buf : Buf β) :
    Transducer (Content hmac B) Unit (PollData β (UpdateError E)) where
  step c _ := c.pollData poll buf

/-- The last result, where the content is the message. -/
def Signature.verdict (sig : Signature) (hmac : Hmac) (secret message : List UInt8) :
    PollData β (UpdateError E) :=
  if (hmac sig.method).code secret message = sig.code then .ready none
  else .ready (some (.error (.signatureMismatch .mk)))

section Polls

variable {poll : B → PollData β E × B} {sig : Signature}
  {secret message : List UInt8} {c : Content hmac B}

theorem body_pollData (buf : Buf β) (c : Content hmac B) :
    (c.pollData poll buf).2.body = (poll c.body).2 := by
  fun_cases Content.pollData poll buf c <;> simp only [*]

/-- A poll before the end yields the result of the body, and its bytes are absorbed. -/
theorem pollData_of_result (buf : Buf β) {r : BodyResult β E}
    (h : c.verifier.Holds sig secret message) (hr : (poll c.body).1 = r.poll id) :
    (c.pollData poll buf).1 = r.poll .body ∧
      (c.pollData poll buf).2.body = (poll c.body).2 ∧
      (c.pollData poll buf).2.verifier.Holds sig secret (message ++ r.bytes buf) := by
  unfold Content.pollData
  cases hp : poll c.body with
  | mk result body =>
    rw [hp] at hr
    replace hr : result = r.poll id := hr
    subst hr
    cases r with
    | data b => exact ⟨rfl, rfl, holds_absorb buf h b⟩
    | pending =>
      refine ⟨rfl, rfl, ?_⟩
      unfold BodyResult.bytes
      rw [List.append_nil]
      exact h
    | error e =>
      refine ⟨rfl, rfl, ?_⟩
      unfold BodyResult.bytes
      rw [List.append_nil]
      exact h

/-- The poll at the end yields the verdict on everything that was absorbed, and the verifier
starts over. -/
theorem pollData_of_end (buf : Buf β) (h : c.verifier.Holds sig secret message)
    (hend : (poll c.body).1 = .ready none) :
    (c.pollData poll buf).1 = sig.verdict hmac secret message ∧
      (c.pollData poll buf).2.verifier.Holds sig secret [] := by
  obtain ⟨hverify, hholds⟩ := h.verifyReset
  unfold Content.pollData Signature.verdict
  cases hp : poll c.body with
  | mk result body =>
    rw [hp] at hend
    replace hend : result = .ready none := hend
    subst hend
    cases hv : c.verifier.verifyReset with
    | mk verdict verifier =>
      rw [hv] at hverify hholds
      replace hverify : verdict = _ := hverify
      by_cases hcode : (hmac sig.method).code secret message = sig.code
      · rw [if_pos hcode] at hverify ⊢
        simp only [hverify]
        exact ⟨trivial, hholds⟩
      · rw [if_neg hcode] at hverify ⊢
        simp only [hverify]
        exact ⟨trivial, hholds⟩

/-- The polls of a body up to its end, once a message has been absorbed. -/
theorem polls_of_yields (buf : Buf β) : ∀ {rs : List (BodyResult β E)} {c : Content hmac B}
    {message : List UInt8}, c.verifier.Holds sig secret message → Yields poll c.body rs →
    ((Content.polls poll buf).run c (List.replicate (rs.length + 1) ())).1 =
        rs.map (BodyResult.poll .body) ++
          [sig.verdict hmac secret (message ++ rs.flatMap (BodyResult.bytes buf))] ∧
      ∀ n ≤ rs.length,
        ((Content.polls poll buf).run c (List.replicate n ())).2.verifier.Holds sig secret
          (message ++ (rs.take n).flatMap (BodyResult.bytes buf))
  | [], c, message, h, hy => by
    refine ⟨?_, fun n hn => ?_⟩
    · rw [List.flatMap_nil, List.append_nil, ← (pollData_of_end buf h hy).1]
      rfl
    · obtain rfl := Nat.le_zero.1 hn
      rw [List.take_zero, List.flatMap_nil, List.append_nil]
      exact h
  | r :: rs, c, message, h, hy => by
    obtain ⟨hr, hy⟩ := hy
    obtain ⟨hout, hbody, hholds⟩ := pollData_of_result buf h hr
    rw [← hbody] at hy
    obtain ⟨hrun, hstates⟩ := polls_of_yields buf hholds hy
    refine ⟨?_, fun n hn => ?_⟩
    · rw [List.map_cons, List.cons_append, List.flatMap_cons, ← List.append_assoc, ← hout, ← hrun]
      rfl
    · cases n with
      | zero =>
        rw [List.take_zero, List.flatMap_nil, List.append_nil]
        exact h
      | succ n =>
        rw [List.take_succ_cons, List.flatMap_cons, ← List.append_assoc]
        exact hstates n (Nat.le_of_succ_le_succ hn)

end Polls

/-- For every body, however its buffers are cut : the content yields the results of the
body, after each of them the verifier has absorbed the bytes so far, and at the end of the
body it yields the end exactly if the signature is the code of all of them. -/
theorem pollData_run {poll : B → PollData β E × B} (buf : Buf β) {body : B}
    {rs : List (BodyResult β E)} (h : Yields poll body rs) (sig : Signature)
    (secret : List UInt8) :
    ((Content.polls poll buf).run (Content.new hmac body sig secret)
        (List.replicate (rs.length + 1) ())).1 =
      rs.map (BodyResult.poll .body) ++
        [sig.verdict hmac secret (rs.flatMap (BodyResult.bytes buf))] ∧
    ∀ n ≤ rs.length,
      ((Content.polls poll buf).run (Content.new hmac body sig secret)
        (List.replicate n ())).2.verifier.Holds sig secret
          ((rs.take n).flatMap (BodyResult.bytes buf)) :=
  polls_of_yields buf (c := Content.new hmac body sig secret)
    (Verifier.holds_verifyWith sig secret) h

/-- The `poll_data` of a body that is the list of its results. -/
def pollList : List (BodyResult β E) → PollData β E × List (BodyResult β E)
  | [] => (.ready none, [])
  | r :: rs => (r.poll id, rs)

theorem yields_pollList (rs : List (BodyResult β E)) : Yields pollList rs rs := by
  induction rs with
  | nil => rfl
  | cons r rs ih => exact ⟨rfl, ih⟩

/-- A code that repeats the sum of the bytes. -/
def exampleHmac : Hmac := fun m =>
  Mac.ofHash fun key message => .replicate m.size ((key ++ message).foldl (· + ·) 0)

/-- A buffer of two segments, one of one segment, and an error between them. -/
theorem pollData_run_example :
    let rs : List (BodyResult (List (List UInt8)) ℕ) :=
      [.data [[1, 2], [3]], .pending, .error 7, .data [[4]]]
    let sig : Signature := ⟨.sha1, .replicate 20 15⟩
    ((Content.polls pollList segments).run (Content.new exampleHmac rs sig [5])
        (List.replicate (rs.length + 1) ())).1 =
      rs.map (BodyResult.poll .body) ++
        [sig.verdict exampleHmac [5] (rs.flatMap (BodyResult.bytes segments))] ∧
    ∀ n ≤ rs.length,
      ((Content.polls pollList segments).run (Content.new exampleHmac rs sig [5])
        (List.replicate n ())).2.verifier.Holds sig [5]
          ((rs.take n).flatMap (BodyResult.bytes segments)) :=
  pollData_run segments (yields_pollList _) _ _

/-! ## Polls past the end -/

/-- The first verdict among the results is not contradicted by a later one. -/
def VerdictFinal : List (PollData β (UpdateError E)) → Prop
  | [] => True
  | .ready none :: later => .ready (some (.error (.signatureMismatch .mk))) ∉ later
  | .ready (some (.error (.signatureMismatch .mk))) :: later => .ready none ∉ later
  | .ready (some (.error (.body _))) :: later => VerdictFinal later
  | .ready (some (.ok _)) :: later => VerdictFinal later
  | .pending :: later => VerdictFinal later

theorem verdictFinal_results (rs : List (BodyResult β E))
    (later : List (PollData β (UpdateError E))) :
    VerdictFinal (rs.map (BodyResult.poll .body) ++ later) ↔ VerdictFinal later := by
  induction rs with
  | nil => rfl
  | cons r rs ih => cases r <;> exact ih

theorem VerdictFinal.of_append {outs later : List (PollData β (UpdateError E))}
    (h : VerdictFinal (outs ++ later)) : VerdictFinal outs := by
  fun_induction VerdictFinal outs with
  | case1 => trivial
  | case2 outs => exact fun hmem => h (List.mem_append_left _ hmem)
  | case3 outs => exact fun hmem => h (List.mem_append_left _ hmem)
  | case4 _ outs ih => exact ih h
  | case5 _ outs ih => exact ih h
  | case6 outs ih => exact ih h

/-- Verdicts on two messages in a row agree exactly if the signature is the code of both or
of neither. -/
theorem verdictFinal_verdict (sig : Signature) (hmac : Hmac) (secret message message' : List UInt8)
    (k : ℕ) :
    VerdictFinal ((sig.verdict hmac secret message : PollData β (UpdateError E)) ::
        List.replicate (k + 1) (sig.verdict hmac secret message')) ↔
      ((hmac sig.method).code secret message = sig.code ↔
        (hmac sig.method).code secret message' = sig.code) := by
  unfold Signature.verdict
  by_cases h : (hmac sig.method).code secret message = sig.code <;>
    by_cases h' : (hmac sig.method).code secret message' = sig.code <;>
    simp [VerdictFinal, h, h']

section Polls

variable {poll : B → PollData β E × B} {sig : Signature}
  {secret message : List UInt8} {c : Content hmac B}

theorem body_polls (buf : Buf β) (c : Content hmac B) (n : ℕ) :
    ((Content.polls poll buf).run c (List.replicate n ())).2.body =
      (fun b => (poll b).2)^[n] c.body := by
  induction n generalizing c with
  | zero => rfl
  | succ n ih =>
    rw [Function.iterate_succ_apply, ← body_pollData buf c, ← ih]
    rfl

/-- Once the body has ended, the first poll yields the verdict on what was absorbed, and each
later one the verdict on nothing. -/
theorem polls_of_ended (buf : Buf β) (h : c.verifier.Holds sig secret message)
    (hended : ∀ n, (poll ((fun b => (poll b).2)^[n] c.body)).1 = .ready none) (k : ℕ) :
    ((Content.polls poll buf).run c (List.replicate (k + 1) ())).1 =
      sig.verdict hmac secret message :: List.replicate k (sig.verdict hmac secret []) := by
  induction k generalizing c message with
  | zero => exact congrArg (· :: []) (pollData_of_end buf h (hended 0)).1
  | succ k ih =>
    have hnext : ∀ n, (poll ((fun b => (poll b).2)^[n] (c.pollData poll buf).2.body)).1 =
        .ready none := fun n => by
      rw [body_pollData, ← Function.iterate_succ_apply]
      exact hended (n + 1)
    have hrest := ih (pollData_of_end buf h (hended 0)).2 hnext
    rw [List.replicate_succ (n := k), ← hrest, ← (pollData_of_end buf h (hended 0)).1]
    rfl

end Polls

variable (hmac) in
/-- The polls of a body that stays ended, up to its end and past it. -/
theorem polls_past_end {poll : B → PollData β E × B} (buf : Buf β) {body : B}
    {rs : List (BodyResult β E)} (h : Yields poll body rs)
    (hended : ∀ n, rs.length ≤ n → (poll ((fun b => (poll b).2)^[n] body)).1 = .ready none)
    (sig : Signature) (secret : List UInt8) (k : ℕ) :
    ((Content.polls poll buf).run (Content.new hmac body sig secret)
        (List.replicate (rs.length + (k + 1)) ())).1 =
      rs.map (BodyResult.poll .body) ++
        sig.verdict hmac secret (rs.flatMap (BodyResult.bytes buf)) ::
          List.replicate k (sig.verdict hmac secret []) := by
  obtain ⟨hrun, hstates⟩ := polls_of_yields buf (c := Content.new hmac body sig secret)
    (Verifier.holds_verifyWith sig secret) h
  have hholds := hstates rs.length le_rfl
  rw [List.take_length, List.nil_append] at hholds
  rw [List.replicate_add, Transducer.run_append] at hrun
  have hresults := (List.append_inj' hrun rfl).1
  rw [List.replicate_add, Transducer.run_append, hresults,
    polls_of_ended buf hholds (fun n => ?_) k]
  rw [body_polls, ← Function.iterate_add_apply]
  exact hended _ (Nat.le_add_left _ _)

/-- For every body that stays ended : whatever the number of polls, the first verdict is kept
by all later ones exactly if the signature is the code of the whole body and of the empty
message, or of neither of them. -/
theorem verdictFinal_iff {poll : B → PollData β E × B} (buf : Buf β) {body : B}
    {rs : List (BodyResult β E)} (h : Yields poll body rs)
    (hended : ∀ n, rs.length ≤ n → (poll ((fun b => (poll b).2)^[n] body)).1 = .ready none)
    (sig : Signature) (secret : List UInt8) :
    (∀ n, VerdictFinal ((Content.polls poll buf).run (Content.new hmac body sig secret)
        (List.replicate n ())).1) ↔
      ((hmac sig.method).code secret (rs.flatMap (BodyResult.bytes buf)) = sig.code ↔
        (hmac sig.method).code secret [] = sig.code) := by
  refine ⟨fun hfinal => ?_, fun hcode n => ?_⟩
  · have hrun := hfinal (rs.length + (1 + 1))
    rw [polls_past_end hmac buf h hended, verdictFinal_results] at hrun
    exact (verdictFinal_verdict sig hmac secret _ [] 0).1 hrun
  · -- A run is the beginning of one that goes past the end.
    have hrun := polls_past_end hmac buf h hended sig secret (n + 1)
    rw [show rs.length + (n + 1 + 1) = n + (rs.length + 2) by omega, List.replicate_add,
      Transducer.run_append] at hrun
    have hlong := (verdictFinal_results (E := E) rs _).2
      ((verdictFinal_verdict (β := β) sig hmac secret _ [] n).2 hcode)
    rw [← hrun] at hlong
    exact hlong.of_append

/-- The empty body is verified again and again. -/
theorem verdictFinal_iff_example :
    (∀ n, VerdictFinal ((Content.polls (pollList (E := ℕ)) segments).run
        (Content.new exampleHmac [] ⟨.sha1, .replicate 20 5⟩ [5]) (List.replicate n ())).1) ↔
      ((exampleHmac .sha1).code [5] [] = .replicate 20 5 ↔
        (exampleHmac .sha1).code [5] [] = .replicate 20 5) :=
  verdictFinal_iff segments (yields_pollList []) (fun n _ => by
    rw [Function.iterate_fixed (show (pollList []).2 = [] from rfl)]
    rfl) _ _

/-- Three polls of the content of one byte 4 under the secret 5. -/
def exampleOuts (byte : UInt8) : List (PollData (List (List UInt8)) (UpdateError ℕ)) :=
  ((Content.polls pollList segments).run
    (Content.new exampleHmac [.data [[4]]] ⟨.sha1, .replicate 20 byte⟩ [5]) [(), (), ()]).1

/-- The signature of a body is verified, and then it is a mismatch. The signature of nothing
is a mismatch for the body, and then it is verified. -/
theorem verdict_not_final :
    exampleOuts 9 = [.ready (some (.ok [[4]])), .ready none,
        .ready (some (.error (.signatureMismatch .mk)))] ∧
      exampleOuts 5 = [.ready (some (.ok [[4]])),
        .ready (some (.error (.signatureMismatch .mk))), .ready none] ∧
      ¬ VerdictFinal (exampleOuts 9) ∧ ¬ VerdictFinal (exampleOuts 5) := by
  have hright : exampleOuts 9 = [.ready (some (.ok [[4]])), .ready none,
      .ready (some (.error (.signatureMismatch .mk)))] := by decide +kernel
  have hwrong : exampleOuts 5 = [.ready (some (.ok [[4]])),
      .ready (some (.error (.signatureMismatch .mk))), .ready none] := by decide +kernel
  refine ⟨hright, hwrong, ?_, ?_⟩
  · rw [hright]
    exact fun h => h List.mem_cons_self
  · rw [hwrong]
    exact fun h => h List.mem_cons_self

end Websub
