import VoiceGrammar.Files.FileSystem
import VoiceGrammar.Main
import VoiceGrammar.Proofs.Compiled
import VoiceGrammar.Proofs.DecodedValues
import VoiceGrammar.Proofs.PhraseLayout
import VoiceGrammar.Proofs.Requiredness
import VoiceGrammar.Proofs.DecoderPrograms
import VoiceGrammar.Proofs.IntentNames
import VoiceGrammar.Proofs.Literals
import VoiceGrammar.Proofs.Rust.Meaning
import VoiceGrammar.Proofs.Rust.Labels
import VoiceGrammar.Proofs.Rust.Refinement
import VoiceGrammar.Proofs.FirstFault
import VoiceGrammar.Proofs.Brackets
import VoiceGrammar.Proofs.Grounded
import VoiceGrammar.Proofs.Growth
import VoiceGrammar.Proofs.SlotOrder
import VoiceGrammar.Proofs.PhraseSets
import VoiceGrammar.Proofs.RoundTrip
import VoiceGrammar.Proofs.FileChanges
import VoiceGrammar.Proofs.GeneratedFile
import VoiceGrammar.Proofs.WrittenNames
import VoiceGrammar.Proofs.ReservedNames
import VoiceGrammar.Proofs.CommandResults
import VoiceGrammar.Proofs.Presentation
import VoiceGrammar.Proofs.EventTrace
import VoiceGrammar.Proofs.DocumentNames
import VoiceGrammar.Proofs.ParsedGrammars
import VoiceGrammar.Proofs.OffendingVariables
import VoiceGrammar.Proofs.Kotlin.Library
import VoiceGrammar.Proofs.Kotlin.Meaning
import VoiceGrammar.Proofs.Kotlin.Legibility
import VoiceGrammar.Proofs.Kotlin.Refinement
import VoiceGrammar.Proofs.DecoderNames
import VoiceGrammar.Proofs.PathComponents
import VoiceGrammar.Proofs.Packages
import VoiceGrammar.Proofs.GivenFillings
import VoiceGrammar.Proofs.JsonSpelling
import VoiceGrammar.Proofs.ShortestDecimals
import VoiceGrammar.Proofs.ListedItems
import VoiceGrammar.Proofs.JsonIntegers
import VoiceGrammar.Proofs.ByteCursor
import VoiceGrammar.Proofs.ReadingPositions
import VoiceGrammar.Proofs.WordNumerals
import VoiceGrammar.Proofs.DistinctElements
