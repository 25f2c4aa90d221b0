import TextTemplate.Main
import TextTemplate.Proofs.Effects
import TextTemplate.Proofs.Plain
import TextTemplate.Proofs.Simulation
import TextTemplate.Proofs.Definition
import TextTemplate.Proofs.Region
import TextTemplate.Proofs.Tracking
import TextTemplate.Proofs.Bounds
import TextTemplate.Proofs.Completion
import TextTemplate.Proofs.Nesting
import TextTemplate.Proofs.Shape
import TextTemplate.Proofs.Depth
import TextTemplate.Proofs.Abort
import TextTemplate.Proofs.Preservation
import TextTemplate.Proofs.Meaning
import TextTemplate.Proofs.ExactTags
import TextTemplate.Proofs.WellFormed
import TextTemplate.Proofs.Independence
import TextTemplate.Proofs.Navigation
import TextTemplate.Proofs.FlagsFile
import TextTemplate.Proofs.KeptFlags
import TextTemplate.Proofs.Installation
import TextTemplate.Proofs.JsonText
import TextTemplate.Proofs.LibraryDocument
import TextTemplate.Proofs.RegexMatches
import TextTemplate.Proofs.RegexSearch
import TextTemplate.Proofs.RegexGroups
import TextTemplate.Proofs.RegexLocality
import TextTemplate.Proofs.RegexEscapes
import TextTemplate.Proofs.RegexClasses
import TextTemplate.Proofs.RegexOpenings
import TextTemplate.Proofs.RegexReading
import TextTemplate.Proofs.Wrapping
import TextTemplate.Proofs.LastMatch
import TextTemplate.Proofs.LastWord
import TextTemplate.Proofs.Candidates
import TextTemplate.Proofs.Dialogue
import TextTemplate.Proofs.Interactive
import TextTemplate.Proofs.EmptyRegion
import TextTemplate.Proofs.OptionTokens
import TextTemplate.Proofs.OptionSpelling
import TextTemplate.Proofs.Classification
import TextTemplate.Proofs.Reinstallation
import TextTemplate.Proofs.Lines
import TextTemplate.Proofs.Indentation
import TextTemplate.Proofs.Insertions
import TextTemplate.Proofs.FinalNewline
import TextTemplate.Proofs.OptionValues
import TextTemplate.Proofs.FlagLines
import TextTemplate.Proofs.MarkSets
import TextTemplate.Proofs.TextPositions
