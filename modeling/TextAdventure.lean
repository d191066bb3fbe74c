import TextAdventure.Main
import TextAdventure.Preview
import TextAdventure.Proofs.Act
import TextAdventure.Proofs.Below
import TextAdventure.Proofs.Binary64
import TextAdventure.Proofs.Body
import TextAdventure.Proofs.Compile
import TextAdventure.Proofs.Confined
import TextAdventure.Proofs.Descent
import TextAdventure.Proofs.Document
import TextAdventure.Proofs.Document.Cycle
import TextAdventure.Proofs.Elementary
import TextAdventure.Proofs.Entry
import TextAdventure.Proofs.Exit
import TextAdventure.Proofs.Fight
import TextAdventure.Proofs.Forgetful
import TextAdventure.Proofs.Gate.Added
import TextAdventure.Proofs.Gate.Opened
import TextAdventure.Proofs.Json.Decides
import TextAdventure.Proofs.Json.Fits
import TextAdventure.Proofs.Json.Scan
import TextAdventure.Proofs.Library
import TextAdventure.Proofs.Library.Course
import TextAdventure.Proofs.Passage
import TextAdventure.Proofs.Phrase
import TextAdventure.Proofs.Player.Merge
import TextAdventure.Proofs.Player.Record
import TextAdventure.Proofs.Preview
import TextAdventure.Proofs.Progress
import TextAdventure.Proofs.Progress.Session
import TextAdventure.Proofs.Promise
import TextAdventure.Proofs.Pruned
import TextAdventure.Proofs.Resume
import TextAdventure.Proofs.Saves
import TextAdventure.Proofs.Script.Verbatim
import TextAdventure.Proofs.Setback
import TextAdventure.Proofs.Shared
import TextAdventure.Proofs.Storable
import TextAdventure.Proofs.Table
import TextAdventure.Proofs.Taken
import TextAdventure.Proofs.Unlimited
import TextAdventure.Proofs.Unshown
import TextAdventure.Proofs.Walk
