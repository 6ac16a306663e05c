import Peerscale.Foundation.NetText

/-! # CONNECT through a tunnel

The `DialContext` of `NewHttpClient` reads the answer of the proxy byte by byte until a blank
line, and looks for the digits `200` anywhere in it.
-/

namespace Peerscale.Pbtunnel.HttpClient

open List

/-- A connection and what can be read from it, or an error and whether the stream is closed. -/
inductive Dialled
  | connected (rest : Bytes)
  | failed (closed : Bool)
  deriving DecidableEq

def blankLine : Bytes := ascii "\r\n\r\n"

/-- The loop with `cnter`, `buf` and what the proxy still sends; `none` if a read fails. -/
def readHead : Nat → Bytes → Bytes → Option (Nat × Bytes × Bytes)
  | cnter, buf, [] => if cnter < 9999 then none else some (cnter, buf, [])
  | cnter, buf, b :: incoming =>
    if cnter < 9999 then
      if blankLine.isSuffixOf (buf ++ [b]) then some (cnter + 1, buf ++ [b], incoming)
      else readHead (cnter + 1) (buf ++ [b]) incoming
    else some (cnter, buf, b :: incoming)

def mentions200 (head : Bytes) : Bool := (Strings.index head (ascii "200")).isSome

def finish : Option (Nat × Bytes × Bytes) → Dialled
  | none => .failed true
  | some (cnter, buf, rest) =>
    if cnter ≥ 9999 then .failed false
    else if mentions200 buf then .connected rest
    else .failed true

def dialContext (sent : Bool) (incoming : Bytes) : Dialled :=
  if sent then finish (readHead 0 [] incoming) else .failed true

/-- The head goes up to the first blank line. -/
structure IsHead (incoming head : Bytes) : Prop where
  begins : head <+: incoming
  ends : blankLine <:+ head
  first : ∀ other, other <+: head → blankLine <:+ other → other = head

def statusLine (head : Bytes) : Bytes := head.take ((Strings.index head (ascii "\r\n")).getD 0)

def statusCode (head : Bytes) : GoString :=
  (((statusLine head).dropWhile (· != 32)).drop 1).takeWhile (· != 32)

def Succeeds (incoming head : Bytes) : Prop :=
  IsHead incoming head ∧ head.length ≤ 9998 ∧ statusCode head = ascii "200"

def Decided (incoming : Bytes) : Prop :=
  (∀ head, Succeeds incoming head →
      dialContext true incoming = .connected (incoming.drop head.length)) ∧
    ((∀ head, ¬Succeeds incoming head) → dialContext true incoming = .failed true)

variable {buf incoming x y : Bytes}

theorem IsHead.unique (first : IsHead incoming x) (second : IsHead incoming y) : y = x := by
  rcases prefix_or_prefix_of_prefix first.begins second.begins with shorter | shorter
  · exact (second.first x shorter first.ends).symm
  · exact first.first y shorter second.ends

theorem finish_readHead (unended : ∀ other, other <+: buf → ¬blankLine <:+ other)
    (le : buf.length ≤ 9999) :
    (∃ x, IsHead (buf ++ incoming) x ∧ x.length ≤ 9998 ∧ finish (readHead buf.length buf incoming) =
        if mentions200 x then .connected ((buf ++ incoming).drop x.length) else .failed true) ∨
    ((∀ x, IsHead (buf ++ incoming) x → 9998 < x.length) ∧
      finish (readHead buf.length buf incoming) =
        .failed (decide ((buf ++ incoming).length < 9999))) := by
  induction incoming generalizing buf with
  | nil =>
    rw [append_nil, readHead]
    refine .inr ⟨fun x isHead => absurd isHead.ends (unended x isHead.begins), ?_⟩
    split
    · rw [decide_eq_true ‹_›]
      rfl
    · rw [decide_eq_false ‹_›, finish, if_pos (by omega)]
  | cons b incoming ih =>
    rw [readHead]
    split
    case isFalse full =>
      -- As many bytes as the loop reads at most, and no blank line.
      refine .inr ⟨fun x isHead => ?_, ?_⟩
      · by_contra short
        have early := prefix_of_prefix_length_le isHead.begins (prefix_append buf _) (by omega)
        exact unended x early isHead.ends
      · rw [finish, if_pos (by omega), decide_eq_false (by rw [length_append]; omega)]
    have size : (buf ++ [b]).length = buf.length + 1 := length_append
    rw [append_cons]
    split
    case isFalse goesOn =>
      rw [← size]
      apply ih _ (by omega)
      intro other early
      rcases prefix_concat_iff.mp early with rfl | early
      · rwa [isSuffixOf_iff_suffix] at goesOn
      · exact unended other early
    case isTrue ended =>
      have isHead : IsHead (buf ++ [b] ++ incoming) (buf ++ [b]) := by
        refine ⟨prefix_append _ _, isSuffixOf_iff_suffix.mp ended, fun other early ends => ?_⟩
        exact (prefix_concat_iff.mp early).resolve_right fun early => unended other early ends
      rw [finish]
      split
      · refine .inr ⟨fun x other => ?_, ?_⟩
        · rw [isHead.unique other]
          omega
        · rw [decide_eq_false (by rw [length_append]; omega)]
      · exact .inl ⟨_, isHead, by omega, by rw [drop_left]⟩

/-- Another `200` in the head makes up for the code, and after too long a head the stream stays
open. -/
theorem decided_iff (incoming : Bytes) : Decided incoming ↔
    (∀ head, IsHead incoming head → head.length ≤ 9998 →
      (mentions200 head = true ↔ statusCode head = ascii "200")) ∧
    ((∀ head, IsHead incoming head → 9998 < head.length) → incoming.length < 9999) := by
  have spec := @finish_readHead [] incoming (by simp [blankLine, ascii]) (Nat.zero_le _)
  rw [nil_append] at spec
  change (∃ x, _ ∧ _ ∧ dialContext true incoming = _) ∨ _ ∧ dialContext true incoming = _ at spec
  rw [Decided]
  rcases spec with ⟨head, isHead, short, dials⟩ | ⟨long, dials⟩
  · have heads : ∀ other, IsHead incoming other ↔ other = head :=
      fun other => ⟨isHead.unique, fun same => same ▸ isHead⟩
    have code := Classical.em (statusCode head = ascii "200")
    cases present : mentions200 head <;> rcases code with code | code <;>
      simp [Succeeds, heads, dials, present, code, short]
  · -- Nothing succeeds, and what is left of both sides is whether the stream is closed.
    grind [Succeeds]

def notFound : Bytes := ascii "HTTP/1.1 404 Not Found\r\nContent-Length: 200\r\n\r\n"

theorem notFound_connected : dialContext true notFound = .connected [] ∧
    statusCode notFound = ascii "404" ∧ IsHead notFound notFound := by
  have first : ∀ other ∈ notFound.inits, blankLine <:+ other → other = notFound := by
    decide +kernel
  refine ⟨by decide +kernel, by decide +kernel, prefix_rfl, by decide +kernel, ?_⟩
  exact fun other early => first other ((mem_inits _ _).mpr early)

end Peerscale.Pbtunnel.HttpClient
