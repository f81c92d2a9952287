import Mathlib.Order.Bounds.Basic
import Scim.Proofs.Filter.Patterns

/-!
# Tokens that tile a text

A text is cut in rounds: a round cuts off what stands at the current place, and stops where
nothing matches.  After any number of rounds the tokens found so far tile the text before the
current place, with nothing but blanks between them.
-/

namespace Scim.Token

/-! ## Rounds -/

/-- A text that is cut up to a place: the place, and the tokens before it. -/
structure Cut where
  position : Nat
  tokens : List Token

/-- The token for the end of a text. -/
def ending (position : Nat) : Token := ⟨.eof, "", position⟩

namespace Cut

/-- The token that a piece at a place is, if it is not blank. -/
def token? (position : Nat) (kind : Option TokenKind) (word : List Char) : Option Token :=
  kind.map fun kind => ⟨kind, String.ofList word, position⟩

/-- A round: the piece at the current place is cut off. -/
def advance (text : List Char) (cut : Cut) : Except Refusal Cut :=
  match piece? (text.drop cut.position) with
  | none => .error (refusalAt cut.position (text.drop cut.position))
  | some (kind, word) =>
    .ok ⟨cut.position + word.length, cut.tokens ++ (token? cut.position kind word).toList⟩

/-- Cuts the rest of a text, or nothing comes of it if that takes more than some rounds. -/
def run (text : List Char) (rounds : Nat) (cut : Cut) : Option (Except Refusal (List Token)) :=
  if cut.position < text.length then
    match rounds with
    | 0 => none
    | rounds + 1 =>
      match cut.advance text with
      | .error refusal => some (.error refusal)
      | .ok next => run text rounds next
  else some (.ok (cut.tokens ++ [ending text.length]))

end Cut

variable {text word : List Char} {kind : Option TokenKind}

theorem scan_blanks {blanks : List Char} (all : ∀ c ∈ blanks, Text.isBlank c = true)
    (position : Nat) (rest : List Char) :
    scan position 0 (blanks ++ rest) = scan (position + blanks.length) 0 rest := by
  induction blanks generalizing position with
  | nil => rfl
  | cons c blanks ih =>
      obtain ⟨blank, others⟩ := List.forall_mem_cons.mp all
      rw [List.cons_append, scan, if_pos blank, ih others, List.length_cons, Nat.add_assoc,
        Nat.add_comm 1]

/-- A piece is a run of blanks, or a token where no blank stands. -/
theorem piece_cases (found : piece? text = some (kind, word)) :
    (kind = none ∧ ∀ c ∈ word, Text.isBlank c = true) ∨
      ∃ token, kind = some token ∧ lexeme? text = some (token, word) ∧
        text.takeWhile Text.isBlank = [] := by
  unfold piece? at found
  split at found
  · next visible =>
    obtain ⟨⟨token, _⟩, taken, same⟩ := Option.map_eq_some_iff.mp found
    cases same
    exact .inr ⟨token, rfl, taken, visible⟩
  · cases found
    exact .inl ⟨rfl, fun c held => List.mem_takeWhile_imp held⟩

/-- A piece is what a text starts with, and has a character. -/
theorem piece?_isPrefix (found : piece? text = some (kind, word)) : word ≠ [] ∧ word <+: text := by
  have stands := stands_piece? text
  rw [found] at stands
  exact ⟨ne_nil_of_mem_pattern stands.1.1, stands.1.2.1⟩

/-- The scan of a text goes on behind the piece at its start. -/
theorem scan_piece (found : piece? text = some (kind, word)) (position : Nat) :
    scan position 0 text =
      (scan (position + word.length) 0 (text.drop word.length)).map
        ((Cut.token? position kind word).toList ++ ·) := by
  obtain ⟨nonempty, rest, rfl⟩ := piece?_isPrefix found
  rw [List.drop_left]
  obtain ⟨rfl, blank⟩ | ⟨token, rfl, taken, visible⟩ := piece_cases found
  · rw [scan_blanks blank]
    cases scan (position + word.length) 0 rest <;> rfl
  · obtain ⟨c, chars, rfl⟩ := List.exists_cons_of_ne_nil nonempty
    have noBlank : Text.isBlank c = false := by
      by_contra blank
      rw [List.cons_append, List.takeWhile_cons_of_pos (Bool.of_not_eq_false blank)] at visible
      cases visible
    exact scan_token noBlank taken position

theorem scan_stuck (stuck : piece? text = none) (nonempty : text ≠ []) (position : Nat) :
    scan position 0 text = .error (refusalAt position text) := by
  obtain ⟨c, rest, rfl⟩ := List.exists_cons_of_ne_nil nonempty
  unfold piece? at stuck
  split at stuck
  · next visible =>
    have noBlank : ¬ Text.isBlank c = true := by
      intro blank
      rw [List.takeWhile_cons_of_pos blank] at visible
      cases visible
    rw [scan, if_neg noBlank, Option.map_eq_none_iff.mp stuck]
  · cases stuck

/-- Enough rounds find what the scan finds. -/
theorem Cut.run_eq (cut : Cut) (rounds : Nat) (inside : cut.position ≤ text.length)
    (enough : text.length ≤ cut.position + rounds) :
    cut.run text rounds =
      some ((scan cut.position 0 (text.drop cut.position)).map (cut.tokens ++ ·)) := by
  induction rounds generalizing cut with
  | zero =>
      have done : cut.position = text.length := by omega
      rw [run, if_neg (by omega), done, List.drop_length]
      rfl
  | succ rounds ih =>
      rw [run]
      split
      · next going =>
        have rest : text.drop cut.position ≠ [] := by
          rw [Ne, List.drop_eq_nil_iff]
          omega
        unfold advance
        cases found : piece? (text.drop cut.position) with
        | none => rw [scan_stuck found rest]; rfl
        | some piece =>
          obtain ⟨kind, word⟩ := piece
          obtain ⟨nonempty, isPrefix⟩ := piece?_isPrefix found
          have short := isPrefix.length_le
          have some := List.length_pos_iff.mpr nonempty
          rw [List.length_drop] at short
          dsimp only
          rw [ih _ (by dsimp only; omega) (by dsimp only; omega), scan_piece found, List.drop_drop]
          dsimp only
          cases scan (cut.position + word.length) 0 (text.drop (cut.position + word.length)) with
          | error refusal => rfl
          | ok tokens => simp [Except.map]
      · have done : cut.position = text.length := by omega
        rw [done, List.drop_length]
        rfl

/-! ## Tiles -/

/-- A token ends before another one starts. -/
def Precedes (first later : Token) : Prop := first.position + first.text.length ≤ later.position

/-- A token covers the places of its characters. -/
def Covers (token : Token) (i : Nat) : Prop :=
  token.position ≤ i ∧ i < token.position + token.text.length

/-- Some tokens tile the beginning of a text: they stand in order, each is what its pattern matches
where it stands, and the characters that none of them covers are blank. -/
structure Tiles (text : List Char) (tokens : List Token) (stop : Nat) : Prop where
  inside : stop ≤ text.length
  apart : tokens.Pairwise Precedes
  before : ∀ token ∈ tokens, token.position + token.text.length ≤ stop
  matched : ∀ token ∈ tokens,
    Stands (text.drop token.position) (some (some token.kind, token.text.toList))
  blank : ∀ i < stop, (∀ token ∈ tokens, ¬ token.Covers i) →
    ∃ c, text[i]? = some c ∧ Text.isBlank c = true

namespace Tiles

theorem nil (text : List Char) : Tiles text [] 0 where
  inside := Nat.zero_le _
  apart := .nil
  before := List.forall_mem_nil _
  matched := List.forall_mem_nil _
  blank := by simp

variable {tokens : List Token} {stop : Nat}

theorem length_le (tiles : Tiles text tokens stop) (isPrefix : word <+: text.drop stop) :
    stop + word.length ≤ text.length := by
  have short := isPrefix.length_le
  have inside := tiles.inside
  rw [List.length_drop] at short
  omega

/-- The characters behind some tiles are blank if those of the next tokens cover the others. -/
theorem blank_append (more : List Token) (tiles : Tiles text tokens stop)
    (isPrefix : word <+: text.drop stop)
    (blank : ∀ i (bound : i < word.length), (∀ token ∈ more, ¬ token.Covers (stop + i)) →
      Text.isBlank (word.get ⟨i, bound⟩) = true) :
    ∀ i < stop + word.length, (∀ token ∈ tokens ++ more, ¬ token.Covers i) →
      ∃ c, text[i]? = some c ∧ Text.isBlank c = true := by
  intro i bound bare
  obtain ⟨before, behind⟩ := List.forall_mem_append.mp bare
  by_cases early : i < stop
  · exact tiles.blank i early before
  · obtain ⟨j, rfl⟩ := Nat.exists_eq_add_of_le (Nat.le_of_not_lt early)
    have bound : j < word.length := by omega
    refine ⟨word.get ⟨j, bound⟩, ?_, blank j bound behind⟩
    rw [← List.getElem?_drop]
    obtain ⟨rest, whole⟩ := isPrefix
    rw [← whole, List.getElem?_append_left bound]
    exact List.getElem?_eq_getElem bound

theorem skip (tiles : Tiles text tokens stop) (isPrefix : word <+: text.drop stop)
    (blank : ∀ c ∈ word, Text.isBlank c = true) : Tiles text tokens (stop + word.length) where
  inside := tiles.length_le isPrefix
  apart := tiles.apart
  before token held := (tiles.before token held).trans (Nat.le_add_right ..)
  matched := tiles.matched
  blank := by
    have blanks := tiles.blank_append [] isPrefix fun i bound _ =>
      blank _ (List.get_mem ..)
    rwa [List.append_nil] at blanks

theorem push {kind : TokenKind} (tiles : Tiles text tokens stop)
    (stands : Stands (text.drop stop) (some (some kind, word))) :
    Tiles text (tokens ++ [⟨kind, String.ofList word, stop⟩]) (stop + word.length) where
  inside := tiles.length_le stands.1.2.1
  apart := by
    refine List.pairwise_append.mpr ⟨tiles.apart, List.pairwise_singleton .., fun first held => ?_⟩
    exact List.forall_mem_singleton.mpr (tiles.before first held)
  before := by
    refine List.forall_mem_append.mpr ⟨fun token held => ?_, by simp⟩
    exact (tiles.before token held).trans (Nat.le_add_right ..)
  matched := by
    refine List.forall_mem_append.mpr ⟨tiles.matched, List.forall_mem_singleton.mpr ?_⟩
    rwa [String.toList_ofList]
  blank := tiles.blank_append [_] stands.1.2.1 fun i bound bare => by
    refine absurd ?_ (bare _ (List.mem_singleton_self _))
    simpa [Covers] using bound

/-- A round keeps the tiles. -/
theorem advance {cut next : Cut} (tiles : Tiles text cut.tokens cut.position)
    (advanced : cut.advance text = .ok next) : Tiles text next.tokens next.position := by
  unfold Cut.advance at advanced
  cases found : piece? (text.drop cut.position) with
  | none =>
      rw [found] at advanced
      cases advanced
  | some piece =>
      obtain ⟨kind, word⟩ := piece
      rw [found] at advanced
      cases advanced
      obtain ⟨rfl, blank⟩ | ⟨kind, rfl, _, _⟩ := piece_cases found
      · have skipped := tiles.skip (piece?_isPrefix found).2 blank
        rwa [← List.append_nil cut.tokens] at skipped
      · exact tiles.push (found ▸ stands_piece? _)

end Tiles

/-! ## Whole texts -/

/-- What comes of cutting a text: tokens that tile all of it, and the end; or a refusal behind
tiles, where nothing matches. -/
def Settled (text : List Char) : Except Refusal (List Token) → Prop
  | .ok tokens =>
    ∃ front, tokens = front ++ [ending text.length] ∧ Tiles text front text.length
  | .error refusal =>
    ∃ front position, Tiles text front position ∧ position < text.length ∧
      Stands (text.drop position) none ∧ refusal = refusalAt position (text.drop position)

/-- Tiles up to the end of a text are the whole of it. -/
theorem Tiles.settled {tokens : List Token} {position : Nat} (tiles : Tiles text tokens position)
    (done : ¬ position < text.length) :
    Settled text (.ok (tokens ++ [ending text.length])) :=
  ⟨tokens, rfl, Nat.le_antisymm tiles.inside (Nat.le_of_not_lt done) ▸ tiles⟩

/-- A round fails where nothing matches. -/
theorem Cut.advance_error {cut : Cut} {refusal : Refusal}
    (failed : cut.advance text = .error refusal) :
    Stands (text.drop cut.position) none ∧
      refusal = refusalAt cut.position (text.drop cut.position) := by
  unfold Cut.advance at failed
  cases found : piece? (text.drop cut.position) with
  | none =>
      rw [found] at failed
      cases failed
      exact ⟨found ▸ stands_piece? _, rfl⟩
  | some piece =>
      rw [found] at failed
      cases failed

/-- Rounds that start from tiles settle the text. -/
theorem settled_run {rounds : Nat} {cut : Cut} {result : Except Refusal (List Token)}
    (tiles : Tiles text cut.tokens cut.position) (ends : cut.run text rounds = some result) :
    Settled text result := by
  induction rounds generalizing cut with
  | zero =>
      rw [Cut.run] at ends
      split at ends
      · cases ends
      · next done =>
        cases ends
        exact tiles.settled done
  | succ rounds ih =>
      rw [Cut.run] at ends
      split at ends
      · next going =>
        cases advanced : cut.advance text with
        | ok next =>
            rw [advanced] at ends
            exact ih (tiles.advance advanced) ends
        | error refusal =>
            rw [advanced] at ends
            cases ends
            obtain ⟨stuck, shown⟩ := Cut.advance_error advanced
            exact ⟨cut.tokens, cut.position, tiles, going, stuck, shown⟩
      · next done =>
        cases ends
        exact tiles.settled done

theorem run_eq_tokenize (text : String) {rounds : Nat} (enough : text.length ≤ rounds) :
    Cut.run text.toList rounds ⟨0, []⟩ = some (tokenize text) := by
  rw [Cut.run_eq _ rounds (Nat.zero_le _) (by rwa [String.length_toList, Nat.zero_add]),
    List.drop_zero, tokenize]
  cases scan 0 0 text.toList <;> rfl

theorem settled_tokenize (text : String) : Settled text.toList (tokenize text) :=
  settled_run (.nil _) (run_eq_tokenize text le_rfl)

/-! ## Places of tokens -/

namespace Tiles

variable {tokens : List Token} {token : Token} {stop : Nat} (tiles : Tiles text tokens stop)

include tiles

theorem kind_ne_eof (held : token ∈ tokens) : token.kind ≠ .eof := by
  intro ends
  have among := (tiles.matched token held).1.1
  rw [ends] at among
  exact Language.notMem_zero _ among

theorem length_pos (held : token ∈ tokens) : 0 < token.text.length := by
  have among := (tiles.matched token held).1.1
  rw [← String.length_toList]
  exact List.length_pos_iff.mpr (ne_nil_of_mem_pattern among)

/-- The tiles and the end behind them do not overlap. -/
theorem precedes_end : (tokens ++ [ending stop]).Pairwise Precedes := by
  refine List.pairwise_append.mpr ⟨tiles.apart, List.pairwise_singleton .., fun first held => ?_⟩
  exact List.forall_mem_singleton.mpr (tiles.before first held)

theorem increasing_end : (tokens ++ [ending stop]).Pairwise (·.position < ·.position) := by
  have behind {first : Token} (held : first ∈ tokens) {place : Nat}
      (apart : first.position + first.text.length ≤ place) : first.position < place := by
    have some := tiles.length_pos held
    omega
  refine List.pairwise_append.mpr ⟨?_, List.pairwise_singleton .., fun first held => ?_⟩
  · exact tiles.apart.imp_of_mem fun held _ apart => behind held apart
  · exact List.forall_mem_singleton.mpr (behind held (tiles.before first held))

theorem occurs (held : token ∈ tokens) :
    Text.OccursAt (String.ofList text) token.text token.position := by
  have before := tiles.before token held
  have inside := tiles.inside
  have occurs : Text.OccursAt (String.ofList (text.take token.position ++ _))
      (String.ofList token.text.toList) (text.take token.position).length :=
    .of_isPrefix (tiles.matched token held).1.2.1
  rw [List.take_append_drop, String.ofList_toList, List.length_take] at occurs
  rwa [Nat.min_eq_left (by omega)] at occurs

/-- Before the end of the tiles, a pattern matches wherever no token is under way. -/
theorem not_stuck {i : Nat} (early : i < stop)
    (outside : ∀ token ∈ tokens, token.Covers i → i = token.position) :
    ¬ Stands (text.drop i) none := by
  intro stuck
  by_cases bare : ∀ token ∈ tokens, ¬ token.Covers i
  · obtain ⟨c, found, blank⟩ := tiles.blank i early bare
    obtain ⟨bound, rfl⟩ := List.getElem?_eq_some_iff.mp found
    refine stuck none [text[i]] ⟨_, ⟨_, blank, rfl⟩, [], Language.nil_mem_kstar _, rfl⟩ ?_
    rw [List.drop_eq_getElem_cons bound]
    exact List.cons_prefix_cons.mpr ⟨rfl, List.nil_prefix⟩
  · obtain ⟨token, held, covers⟩ : ∃ token ∈ tokens, token.Covers i := by
      simpa using bare
    obtain rfl := outside token held covers
    obtain ⟨among, isPrefix, _⟩ := (tiles.matched token held).1
    exact stuck _ _ among isPrefix

end Tiles

/-- A text is cut in at most one round per character. Either tokens tile all of it, and the end is
behind them; or it is refused at the first place that is not inside a token before it and where
nothing matches. -/
theorem tokenize_tiles (text : String) :
    (∀ rounds, text.length ≤ rounds →
      Cut.run text.toList rounds ⟨0, []⟩ = some (tokenize text)) ∧
    (∀ tokens, tokenize text = .ok tokens →
      tokens.Pairwise (·.position < ·.position) ∧
      tokens.Pairwise Precedes ∧
      (∀ token ∈ tokens, Text.OccursAt text token.text token.position) ∧
      (∀ i c, text.toList[i]? = some c → (∀ token ∈ tokens, ¬ token.Covers i) →
        Text.isBlank c = true) ∧
      ∃ front, tokens = front ++ [ending text.length] ∧
        ∀ token ∈ front, token.kind ≠ .eof ∧
          Stands (text.toList.drop token.position) (some (some token.kind, token.text.toList))) ∧
    ∀ refusal, tokenize text = .error refusal →
      ∃ front position, Tiles text.toList front position ∧
        IsLeast {i | i < text.length ∧ (∀ token ∈ front, token.Covers i → i = token.position) ∧
          Stands (text.toList.drop i) none} position ∧
        (Filter.Refusal.ofToken refusal).toFailure =
          if (text.toList.drop position).head? = some '"' then
            .scim (.invalidFilter "Unterminated string literal" (some position)
              (String.ofList ((text.toList.drop position).take 20)))
          else
            .scim (.invalidFilter "Unexpected character" (some position)
              (String.ofList ((text.toList.drop position).take 1))) := by
  refine ⟨fun rounds enough => run_eq_tokenize text enough, fun tokens cut => ?_,
    fun refusal failed => ?_⟩
  · have settled := settled_tokenize text
    rw [cut] at settled
    obtain ⟨front, rfl, tiles⟩ := settled
    rw [String.length_toList] at tiles ⊢
    refine ⟨tiles.increasing_end, tiles.precedes_end, ?_, fun i c found bare => ?_, front, rfl,
      fun token held => ⟨tiles.kind_ne_eof held, tiles.matched token held⟩⟩
    · refine List.forall_mem_append.mpr ⟨fun token held => ?_, List.forall_mem_singleton.mpr ?_⟩
      · simpa using tiles.occurs held
      · exact ⟨text, "", by simp [ending], rfl⟩
    · obtain ⟨bound, _⟩ := List.getElem?_eq_some_iff.mp found
      rw [String.length_toList] at bound
      have covered := fun token held => bare token (List.mem_append_left _ held)
      obtain ⟨d, same, blank⟩ := tiles.blank i bound covered
      rw [found] at same
      cases same
      exact blank
  · have settled := settled_tokenize text
    rw [failed] at settled
    obtain ⟨front, position, tiles, early, stuck, rfl⟩ := settled
    rw [String.length_toList] at early
    refine ⟨front, position, tiles, ⟨⟨early, fun token held covers => ?_, stuck⟩, ?_⟩, ?_⟩
    · exact absurd covers.2 (Nat.not_lt.mpr (tiles.before token held))
    · rintro i ⟨_, outside, stuckToo⟩
      by_contra earlier
      exact tiles.not_stuck (by omega) outside stuckToo
    · unfold refusalAt
      split
      · rfl
      · rfl

/-- A text of two words, and one that goes on with no token behind its first word. -/
theorem tokenize_tiles_words :
    Cut.run "a pr".toList 4 ⟨0, []⟩ = some (tokenize "a pr") ∧
    ([⟨.word, "a", 0⟩, ⟨.word, "pr", 2⟩, ending 4] : List Token).Pairwise Precedes ∧
    ∃ front position, Tiles "a !".toList front position ∧
      Stands ("a !".toList.drop position) none := by
  refine ⟨(tokenize_tiles "a pr").1 4 (by decide),
    ((tokenize_tiles "a pr").2.1 _ (by decide +kernel)).2.1, ?_⟩
  obtain ⟨front, position, tiles, ⟨⟨_, _, stuck⟩, _⟩, _⟩ :=
    (tokenize_tiles "a !").2.2 (.unexpectedCharacter 2 "!") (by decide +kernel)
  exact ⟨front, position, tiles, stuck⟩

end Scim.Token
