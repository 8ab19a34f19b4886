import Reply.Main
import Reply.Session.Command
import Reply.Session.Streaming
import Reply.Proofs.Payload.Decoding
import Reply.Proofs.Payload.Edit
import Reply.Proofs.Delivery
import Reply.Proofs.Session.Generations
import Reply.Proofs.Session.Completion
import Reply.Proofs.Session.Linearity
import Reply.Proofs.Session.Transparency
import Reply.Proofs.Session.Revalidation
import Reply.Proofs.Session.Onlooking
import Reply.Proofs.Session.Variants
import Reply.Proofs.Session.HeaderSections
import Reply.Proofs.Session.Guarding
import Reply.Proofs.Payload.Bindings
import Reply.Proofs.Session.Clearing
import Reply.Proofs.Session.TagOrigins
import Reply.Proofs.Connection
import Reply.Proofs.Preparation
import Reply.Proofs.Settings
import Reply.Proofs.Session.Attempts
import Reply.Proofs.Session.Firing
import Reply.Proofs.Session.Fields
import Reply.Proofs.SettingsText
import Reply.Proofs.Json.Rendering
import Reply.Proofs.TagText
import Reply.Proofs.Session.Alarms
import Reply.Proofs.Session.Mixed
import Reply.Proofs.CommandLine.Outcome
