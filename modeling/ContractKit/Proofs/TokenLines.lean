import ContractKit.Proofs.Coverage
import ContractKit.Proofs.Lines

/-!
# Tokens line by line

A line end closes whatever a text leaves open that has tokens: a line comment, half of a comment mark, a
word. So the tokens of a text and of the lines behind it are found apart (`Token.scan_append_lines`), lines of
blanks and comments add none, and the texts of tokens on lines of their own have these tokens.
-/

namespace ContractKit.Token

/-- The text of a token is that token. -/
theorem scan_text {token : Token} (h : token.IsProper) : scan token.text = .ok [token] := by
  have hscan := scan_token h token.endsBefore_nil
  rwa [List.append_nil, scan_nil] at hscan

/-- Proper tokens on lines of their own are found again. -/
theorem scan_joinLines_text {tokens : List Token} (h : ∀ token ∈ tokens, token.IsProper) :
    scan (Text.joinLines (tokens.map Token.text)) = .ok tokens := by
  have hlines : List.Forall₂ (fun s ts => scan s = .ok ts) (tokens.map Token.text)
      (tokens.map fun token => [token]) := by
    rw [List.forall₂_map_left_iff, List.forall₂_map_right_iff, List.forall₂_same]
    exact fun token htoken => scan_text (h token htoken)
  rw [scan_joinLines hlines, ← List.flatMap_def, List.flatMap_singleton']

/-- The lines behind a text that has tokens are scanned by themselves, and their tokens come behind those of
the text. Lines of blanks and comments make no difference, and the tokens of the text, each on a line of its
own, are found again. -/
theorem scan_append_lines {a : Text} {tokens : List Token} (ha : scan a = .ok tokens) :
    (∀ b result, scan (a ++ ('\n' : CodePoint) :: b) = .ok result ↔
      ∃ others, scan b = .ok others ∧ result = tokens ++ others) ∧
    (∀ gap b, GapBefore b gap →
      scan (a ++ ('\n' : CodePoint) :: (gap ++ b)) = scan (a ++ ('\n' : CodePoint) :: b)) ∧
    (∀ gap, GapBefore [] gap → scan (a ++ ('\n' : CodePoint) :: gap) = .ok tokens) ∧
    scan (Text.joinLines (tokens.map Token.text)) = .ok tokens := by
  have hwritten := written_of_scan ha
  refine ⟨fun b result => ?_, fun gap b hgap => ?_, fun gap hgap => ?_, ?_⟩
  · rw [hwritten.scan_append_line, map_eq_ok_iff]
    simp only [eq_comm]
  · rw [hwritten.scan_append_line, hwritten.scan_append_line, hgap.scan_append]
  · have hnone : scan gap = .ok [] := by
      rw [← List.append_nil gap, hgap.scan_append, scan_nil]
    rw [hwritten.scan_append_line, hnone]
    simp [Except.map]
  · exact scan_joinLines_text hwritten.isProper

/-- Neither half of a comment mark nor an open line comment reaches over the line end. -/
theorem scan_append_lines_half_mark :
    scan "x\\/" = .ok [.identifier "x", .mark '\\', .mark '/'] ∧
      scan ("x\\/" ++ ('\n' : CodePoint) :: "*y // z") =
        .ok [.identifier "x", .mark '\\', .mark '/', .mark '*', .identifier "y"] ∧
      scan ("x\\/" ++ ('\n' : CodePoint) :: "/* z */") =
        .ok [.identifier "x", .mark '\\', .mark '/'] ∧
      scan (Text.joinLines ["x", "\\", "/"]) = .ok [.identifier "x", .mark '\\', .mark '/'] := by
  have ha : scan "x\\/" = .ok [.identifier "x", .mark '\\', .mark '/'] := by cbv
  have hb : scan "*y // z" = .ok [.mark '*', .identifier "y"] := by cbv
  obtain ⟨happend, -, hgap, hjoin⟩ := scan_append_lines ha
  have hcomment : CommentRest " z */" :=
    .char (by decide) (by decide) (.char (by decide) (by decide) (.char (by decide) (by decide) .close))
  exact ⟨ha, (happend _ _).mpr ⟨_, hb, rfl⟩, hgap _ (.block hcomment .nil), hjoin⟩

end ContractKit.Token
