import SecReviewBot.FencedBlocks
import SecReviewBot.GithubIntegration.SuggestionService

/-!
# Suggestion blocks as Markdown

The body of a suggestion is its replacement between two fixed fences. The replacement is
text of a file, so one of its lines may close the first fence.
-/

namespace SuggestionBodies

open FencedBlocks TextPieces SuggestionService

/-- One block of the info string `suggestion`, with the lines of the replacement and nothing
behind it. The line feed in front of the closing fence ends the last of them. -/
def suggestionFence (replacement : String) : Fenced where
  info := "suggestion".toList
  content := linesOf (replacement.toList ++ ['\n'])
  outside := []

theorem body_chars (replacement : String) :
    (buildSuggestionBody replacement).toList =
      "```suggestion".toList ++ '\n' :: (replacement.toList ++ '\n' :: "```".toList) := by
  rw [buildSuggestionBody, join, String.toList_ofList]
  rfl

/-- A replacement stays in its block exactly when no line of it closes a fence of three
backticks. -/
theorem replacement_stays_in_block_iff (replacement : String) :
    readFenced (buildSuggestionBody replacement).toList = some (suggestionFence replacement) ↔
      ∀ line ∈ linesOf (replacement.toList ++ ['\n']), closesFence 3 line.1 = false := by
  rw [body_chars]
  exact readFenced_iff (by decide) (by decide) (by decide)
    (by decide) replacement.toList

/-- A mitigation that documents a command in `README.md`. -/
def readmePatch : String :=
  join '\n' ["diff --git a/README.md b/README.md", "--- a/README.md", "+++ b/README.md",
    "@@ -3,2 +3,5 @@", " Install with", "+```sh", "+npm ci", "+```", " and run the tests.", ""]

def readmeFile : PullRequestFile where
  filename := "README.md"
  patch := some "@@ -1,4 +1,4 @@"

theorem code_block_leaves_suggestion :
    ∃ candidate ∈ (buildSuggestionManifest readmePatch [readmeFile] true).candidates,
      candidate.body = buildSuggestionBody candidate.replacement ∧
      readFenced candidate.body.toList ≠ some (suggestionFence candidate.replacement) := by
  have built : (buildSuggestionManifest readmePatch [readmeFile] true).candidates =
      [{ path := "README.md", startLine := 4, line := 4,
         replacement := "```sh\nnpm ci\n```\nand run the tests.",
         body := buildSuggestionBody "```sh\nnpm ci\n```\nand run the tests." }] := by
    decide +kernel
  rw [built]
  exact ⟨_, List.mem_singleton_self _, rfl, by decide⟩

end SuggestionBodies
